import LineForth.Proofs.Batch
import LineForth.Proofs.Stepwise

/-! # Dictionaries that agree on words

Of a dictionary a text needs only what its words stand for, the words being its runs of graphic
characters that are not digits alone. Dictionaries that agree on them cut the same batches off the text
(`Batch.cut_congr`), and the tokens of those mean the same under both (`Token.meaning_ofText_congr`).
-/

namespace LineForth

open Text

/-- Each of the runs that is not all digits is an entry of both dictionaries, for the same operations,
or of neither. -/
def Dictionary.AgreeOn (first second : Dictionary) (runs : List String) : Prop :=
  ∀ run ∈ runs, run.toList.all Char.isDigit = false → first[run]? = second[run]?

theorem Dictionary.AgreeOn.subset {first second : Dictionary} {runs fewer : List String}
    (agree : first.AgreeOn second runs) (subset : fewer ⊆ runs) : first.AgreeOn second fewer :=
  fun run member => agree run (subset member)

namespace Token

variable {first second : Dictionary} {run : String}
  (agree : run.toList.all Char.isDigit = false → first[run]? = second[run]?)

include agree

theorem ofText_congr : ofText first run = ofText second run := by
  unfold ofText TokenKind.classify
  cases word : run.toList.all Char.isDigit with
  | true => rfl
  | false =>
    simp only [Std.TreeMap.contains_eq_isSome_getElem?, agree word]

/-- The token of a run on which two dictionaries agree means the same under both. -/
theorem meaning_ofText_congr :
    (ofText first run).meaning second = (ofText first run).meaning first := by
  cases word : run.toList.all Char.isDigit with
  | true => rw [ofText_congr agree, meaning_ofText_digits second word, ← ofText_congr agree,
      meaning_ofText_digits first word]
  | false => rw [ofText_congr agree, meaning_ofText_word second word, ← ofText_congr agree,
      meaning_ofText_word first word, agree word]

end Token

namespace Batch

variable {first second : Dictionary}

theorem cutFrom_congr {pending : List Char} (graphic : ∀ c ∈ pending, isGraphic c = true)
    {text : List Char} (agree : first.AgreeOn second (graphicRuns (pending.reverse ++ text))) :
    cutFrom first pending text = cutFrom second pending text := by
  induction text generalizing pending with
  | nil => rfl
  | cons c rest ih =>
    unfold cutFrom
    cases kind : isGraphic c with
    | true =>
      have same : pending.reverse ++ c :: rest = (c :: pending).reverse ++ rest := by simp
      rw [same] at agree
      exact ih (by simpa [kind] using graphic) agree
    | false =>
      rw [graphicRuns_append_cons kind] at agree
      have later : cutFrom first [] rest = cutFrom second [] rest :=
        ih (by simp) (agree.subset (List.subset_append_right ..))
      simp only [later, Bool.false_eq_true, ↓reduceIte]
      by_cases begun : pending = []
      · simp only [begun, List.isEmpty_nil, ↓reduceIte]
      · have run : String.ofList pending.reverse ∈ graphicRuns pending.reverse := by
          rw [graphicRuns_of_graphic (by simpa using begun) (by simpa using graphic)]
          exact List.mem_singleton_self _
        rw [Token.ofText_congr (agree _ (List.mem_append_left _ run))]

/-- Dictionaries that agree on the words of a text cut the same batch off it. -/
theorem cut_congr {text : List Char} (agree : first.AgreeOn second (graphicRuns text)) :
    cut first text = cut second text :=
  cutFrom_congr (by simp) agree

/-- A batch and what it leaves of a closed text have no runs but those of the text. -/
theorem runs_of_cut (dictionary : Dictionary) {text : List Char} (closed : Closed text) :
    (∀ token ∈ (cut dictionary text).tokens,
      token.text ∈ graphicRuns text ∧ token = Token.ofText dictionary token.text) ∧
    graphicRuns (cut dictionary text).rest ⊆ graphicRuns text ∧ Closed (cut dictionary text).rest := by
  obtain ⟨count, takes, left⟩ := takes_cut dictionary closed
  rw [← List.take_append_drop count text] at closed
  rw [takes.graphicRuns_eq, left]
  refine ⟨fun token member => ⟨?_, takes.eq_ofText token member⟩, List.subset_append_right ..,
    closed.of_append⟩
  exact List.mem_append_left _ (List.mem_map_of_mem member)

end Batch

end LineForth
