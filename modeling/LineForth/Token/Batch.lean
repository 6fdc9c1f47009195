import LineForth.Token

/-! # Batches of tokens

A line is read batch by batch: numbers up to the first token that is none, and that token, so that
a word is resolved and run before anything behind it is read. A batch is cut behind the character
that ends its last token; a run of graphic characters that nothing ends yields no token. What a
batch leaves of a line is shorter than the line (`Batch.length_rest_cut_lt`).
-/

namespace LineForth

/-- The tokens that one reading cuts off a text, and the characters behind them. -/
structure Batch where
  tokens : List Token
  rest : List Char
deriving Repr

namespace Batch

/-- The next batch of a text, where `pending` holds the characters of a run begun before it, the
latest one first. -/
def cutFrom (dictionary : Dictionary) (pending : List Char) : List Char → Batch
  | [] => ⟨[], []⟩
  | c :: rest =>
      if Text.isGraphic c then cutFrom dictionary (c :: pending) rest
      else if pending.isEmpty then cutFrom dictionary [] rest
      else
        let token := Token.ofText dictionary (String.ofList pending.reverse)
        if token.kind = .number then
          let later := cutFrom dictionary [] rest
          ⟨token :: later.tokens, later.rest⟩
        else ⟨[token], rest⟩

def cut (dictionary : Dictionary) (text : List Char) : Batch := cutFrom dictionary [] text

theorem length_rest_cutFrom_le (dictionary : Dictionary) (pending text : List Char) :
    (cutFrom dictionary pending text).rest.length ≤ text.length := by
  induction text generalizing pending with
  | nil => simp [cutFrom]
  | cons c rest ih =>
    simp only [cutFrom, List.length_cons]
    split
    · exact Nat.le_succ_of_le (ih _)
    · split
      · exact Nat.le_succ_of_le (ih _)
      · split
        · exact Nat.le_succ_of_le (ih _)
        · exact Nat.le_succ _

theorem length_rest_cutFrom_lt (dictionary : Dictionary) (pending : List Char) (c : Char)
    (text : List Char) :
    (cutFrom dictionary pending (c :: text)).rest.length < (c :: text).length := by
  simp only [cutFrom, List.length_cons, Nat.lt_succ_iff]
  split
  · exact length_rest_cutFrom_le _ _ _
  · split
    · exact length_rest_cutFrom_le _ _ _
    · split
      · exact length_rest_cutFrom_le _ _ _
      · exact Nat.le_refl _

/-- A batch cut off a text that is not empty leaves a shorter one. -/
theorem length_rest_cut_lt (dictionary : Dictionary) (c : Char) (text : List Char) :
    (cut dictionary (c :: text)).rest.length < (c :: text).length :=
  length_rest_cutFrom_lt dictionary [] c text

end Batch

end LineForth
