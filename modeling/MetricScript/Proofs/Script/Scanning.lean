import Mathlib
import MetricScript.Script.Scan

/-!
# The end of the token stream

A stream that ends has one end token, and it is the last one.
-/

namespace MetricScript

namespace Scan

theorem singleKind_ne_eof (c : Char) : singleKind c ≠ .eof := by
  unfold singleKind
  split <;> simp

theorem pairKind?_ne_eof (first second : Char) : pairKind? first second ≠ some .eof := by
  unfold pairKind?
  split <;> simp

theorem wordKind_ne_eof (word : String) : wordKind word ≠ .eof := by
  unfold wordKind
  split <;> simp

theorem takeSymbol_kind_ne_eof (first : Char) (rest : List Char) :
    (takeSymbol first rest).kind ≠ .eof := by
  cases rest with
  | nil => exact singleKind_ne_eof first
  | cons second rest =>
    rw [takeSymbol]
    split
    · next kind hkind =>
      rintro rfl
      exact pairKind?_ne_eof first second hkind
    · exact singleKind_ne_eof first

theorem takeString_kind_ne_eof (text : List Char) : (takeString text).kind ≠ .eof := by
  unfold takeString
  split <;> simp

theorem takeVariable_kind_ne_eof (text : List Char) : (takeVariable text).kind ≠ .eof := by
  simp only [takeVariable, Piece.verbatim]
  split <;> simp

theorem take_kind_ne_eof (first : Char) (rest : List Char) : (take first rest).kind ≠ .eof := by
  unfold take
  split
  · exact takeSymbol_kind_ne_eof first rest
  · split
    · simp [Piece.verbatim]
    · split
      · exact takeString_kind_ne_eof rest
      · split
        · exact takeVariable_kind_ne_eof rest
        · exact wordKind_ne_eof _

end Scan

namespace Cursor

/-- A step gives the end token and ends the stream, or gives another token and goes on. -/
theorem next?_cases {cursor following : Cursor} {token : Token}
    (hnext : cursor.next? = some (token, following)) :
    (token.kind = .eof ∧ following.ended = true) ∨
      (token.kind ≠ .eof ∧ following.ended = false) := by
  unfold next? at hnext
  split at hnext
  · exact nomatch hnext
  · split at hnext
    · obtain ⟨rfl, rfl⟩ := Prod.mk.inj (Option.some.inj hnext)
      exact .inr ⟨by simp, rfl⟩
    · obtain ⟨rfl, rfl⟩ := Prod.mk.inj (Option.some.inj hnext)
      exact .inl ⟨rfl, rfl⟩
    · next first rest _ =>
      obtain ⟨rfl, rfl⟩ := Prod.mk.inj (Option.some.inj hnext)
      exact .inr ⟨Scan.take_kind_ne_eof first rest, rfl⟩

/-- The cursor gives tokens until it has given the end token. -/
theorem next?_eq_none_iff (cursor : Cursor) : cursor.next? = none ↔ cursor.ended = true := by
  unfold next?
  split
  · next hended => simp [hended]
  · next hended =>
    split <;> simp [hended]

theorem tokens?_of_ended {cursor : Cursor} (hended : cursor.ended = true) :
    cursor.tokens? = some [] := by
  rw [tokens?, (next?_eq_none_iff cursor).2 hended]

/-- The stream is the next token and the stream behind it, if the cursor moved. -/
theorem tokens?_of_next? {cursor following : Cursor} {token : Token}
    (hnext : cursor.next? = some (token, following)) (hsize : following.size < cursor.size) :
    cursor.tokens? = following.tokens?.map (token :: ·) := by
  rw [tokens?, hnext]
  simp [hsize]

/-- The last token of a stream is the end, and no other one is. -/
theorem tokens?_eq_append_eof {cursor : Cursor} {tokens : List Token}
    (htokens : cursor.tokens? = some tokens) (hended : cursor.ended = false) :
    ∃ own final, tokens = own ++ [final] ∧ final.kind = .eof ∧
      ∀ token ∈ own, token.kind ≠ .eof := by
  induction hsize : cursor.size using Nat.strong_induction_on generalizing cursor tokens with
  | _ size ih =>
    rw [tokens?] at htokens
    split at htokens
    · next hnone =>
      rw [next?_eq_none_iff, hended] at hnone
      cases hnone
    · next token following hnext =>
      split at htokens
      · next hlt =>
        obtain ⟨others, hothers, rfl⟩ := Option.map_eq_some_iff.1 htokens
        rcases next?_cases hnext with ⟨heof, hfollowing⟩ | ⟨hkind, hfollowing⟩
        · rw [tokens?_of_ended hfollowing] at hothers
          obtain rfl := Option.some.inj hothers
          exact ⟨[], token, rfl, heof, by simp⟩
        · obtain ⟨own, final, rfl, hfinal, hown⟩ :=
            ih following.size (hsize ▸ hlt) hothers hfollowing rfl
          exact ⟨token :: own, final, rfl, hfinal, by simpa using ⟨hkind, hown⟩⟩
      · cases htokens

end Cursor

end MetricScript
