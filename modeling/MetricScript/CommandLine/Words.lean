/-!
# The words of a command line

How the words after the program's name are taken apart.  A word with two dashes is a long
option, a word with one dash is a short one, and both may carry their value with them; two
dashes alone say that only operands follow.  A value that is a word of its own may not look
like an option.  Reading stops at the first mistake, and also at a request for help or for
the version.
-/

namespace MetricScript.CommandLine

/-- Why there is nothing to perform. -/
inductive Early where
  /-- The words are not a request. -/
  | misuse
  /-- Help was asked for. -/
  | help
  /-- The version was asked for. -/
  | version
deriving DecidableEq

/-- An option: one that stands alone or one that takes a value, and what it does to the
request read so far. -/
inductive Entry (α : Type) where
  | alone (apply : α → Except Early α)
  | valued (apply : String → α → Except Early α)

/-- What may stand on a command line: options, operands and the names of commands. -/
structure Grammar (α : Type) where
  long? : String → Option (Entry α)
  short? : Char → Option (Entry α)
  operand : String → α → Except Early α
  isCommand : String → Bool := fun _ => false

/-- What a word looks like. -/
inductive Shape where
  /-- Two dashes alone. -/
  | separator
  | long (name : String) (value : Option String)
  | short (first : Char) (rest : List Char)
  | plain
deriving DecidableEq

/-- Tells what a word looks like; a single dash is a plain word. -/
def Shape.ofWord (word : String) : Shape :=
  match word.toList with
  | ['-', '-'] => separator
  | '-' :: '-' :: text =>
      let name := text.takeWhile (· ≠ '=')
      match text.dropWhile (· ≠ '=') with
      | _ :: value => long (String.ofList name) (some (String.ofList value))
      | [] => long (String.ofList name) none
  | '-' :: first :: rest => short first rest
  | _ => plain

/-- The value that the characters behind a short option are; one equals sign before it does
not count. -/
def attachedValue? : List Char → Option String
  | [] => none
  | '=' :: value => some (String.ofList value)
  | value => some (String.ofList value)

namespace Grammar

variable {α : Type} (grammar : Grammar α)

/-- Applies a cluster of short options.  The last of them may still miss its value. -/
def applyShort (state : α) : Char → List Char → Except Early (α ⊕ (String → α → Except Early α))
  | first, rest =>
      match grammar.short? first with
      | none => .error .misuse
      | some (.alone apply) => do
          let next ← apply state
          match rest with
          | [] => return .inl next
          | second :: others => applyShort next second others
      | some (.valued apply) =>
          match attachedValue? rest with
          | some value => do return .inl (← apply value state)
          | none => .ok (.inr apply)
termination_by _ rest => rest.length

/-- Applies the option that a word is; what is left is an option that misses its value. -/
def applyOption (state : α) (name : String) :
    Option String → Except Early (α ⊕ (String → α → Except Early α))
  | value =>
      match grammar.long? name, value with
      | none, _ => .error .misuse
      | some (.alone apply), none => do return .inl (← apply state)
      | some (.alone _), some _ => .error .misuse
      | some (.valued apply), some given => do return .inl (← apply given state)
      | some (.valued apply), none => .ok (.inr apply)

def operands (state : α) (words : List String) : Except Early α :=
  words.foldlM (fun state word => grammar.operand word state) state

/-- Reads words up to the name of a command, which stays with the words behind it. -/
def read (state : α) : List String → Except Early (α × List String)
  | [] => .ok (state, [])
  | word :: rest =>
      if grammar.isCommand word then .ok (state, word :: rest)
      else
        let applied : Except Early (α ⊕ (String → α → Except Early α)) :=
          match Shape.ofWord word with
          | .separator => .ok (.inl state)
          | .plain => do return .inl (← grammar.operand word state)
          | .long name value => grammar.applyOption state name value
          | .short first others => grammar.applyShort state first others
        match applied with
        | .error early => .error early
        | .ok (.inl next) =>
            if Shape.ofWord word = .separator then do return (← grammar.operands next rest, [])
            else read next rest
        | .ok (.inr apply) =>
            match rest with
            | [] => .error .misuse
            | value :: others =>
                if Shape.ofWord value = .plain then do read (← apply value state) others
                else .error .misuse

end Grammar

end MetricScript.CommandLine
