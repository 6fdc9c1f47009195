import LineForth.Machine.Reading
import LineForth.Proofs.Batch

/-! # Reading a line to its end

Reading goes on from where the last batch stopped, as long as something is left of the line.
`Machine.scan_of_readable` says what a single reading does to a line that passes the checks, and
`Machine.scan_resumed` that repeating it splits the line into its runs of graphic characters,
each queued once, in order and under the kind that it is taken for.
-/

namespace LineForth

open Text

/-- The lines that pass the checks: they are ASCII, and a delimiter ends them if anything does. -/
structure Text.Readable (line : List Char) : Prop where
  ascii : ∀ c ∈ line, isAscii c = true
  closed : Closed line

theorem ScanError.ofLine?_eq_none_iff (line : List Char) :
    ScanError.ofLine? line = none ↔ Readable line := by
  constructor
  · intro passed
    unfold ScanError.ofLine? at passed
    split at passed
    · contradiction
    · next ascii =>
      split at passed
      · contradiction
      · next closed =>
        refine ⟨by simpa using ascii, (closed_iff line).mpr (by simpa using closed)⟩
  · rintro ⟨ascii, closed⟩
    have all : line.all isAscii = true := List.all_eq_true.mpr ascii
    simp [ScanError.ofLine?, all, (closed_iff line).mp closed]

theorem Text.Readable.append {front back : List Char} (first : Readable front) (second : Readable back) :
    Readable (front ++ back) :=
  ⟨List.forall_mem_append.mpr ⟨first.ascii, second.ascii⟩, first.closed.append second.closed⟩

theorem Text.Readable.drop {line : List Char} (readable : Readable line) (count : Nat) :
    Readable (line.drop count) :=
  ⟨fun c member => readable.ascii c (List.mem_of_mem_drop member), readable.closed.drop count⟩

/-- ASCII characters with a terminator behind them pass the checks. -/
theorem Text.readable_terminated {line : String} (ascii : ∀ c ∈ line.toList, isAscii c = true) :
    Readable (line ++ "\n").toList := by
  rw [String.toList_append]
  constructor
  · refine List.forall_mem_append.mpr ⟨ascii, ?_⟩
    rw [show "\n".toList = ['\n'] from rfl]
    exact List.forall_mem_singleton.mpr (by decide)
  · exact closed_concat (by decide) _

namespace Machine

@[simp] theorem queueTokens_nil (machine : Machine) : machine.queueTokens [] = machine := by
  simp [queueTokens]

theorem queueTokens_append (machine : Machine) (first second : List Token) :
    machine.queueTokens (first ++ second) = (machine.queueTokens first).queueTokens second := by
  simp [queueTokens]

/-- The run of a reading that is not refused: it queues these tokens and stops at this position. -/
def reads (machine : Machine) (tokens : List Token) (stop : Int) : Run Int :=
  ⟨.ok stop, machine.queueTokens tokens, tokens.map (.recorded ∘ .scanned)⟩

/-- A line that passes the checks is read as far as a batch of what stands behind the position goes. -/
theorem scan_of_window (machine : Machine) {line : String} (readable : Readable line.toList) {start : Int}
    {text : List Char} (opened : window line.toList start = .ok text) :
    machine.scan line start = machine.reads (Batch.cut machine.dictionary text).tokens
      (line.length - (Batch.cut machine.dictionary text).rest.length) := by
  have passed := (ScanError.ofLine?_eq_none_iff line.toList).mpr readable
  simp only [scan, passed, opened, takeIn, reads, Run.andThen, Run.done, Run.after, List.append_nil]

/-- One reading queues what a batch takes off the rest of the line and stops behind it. -/
theorem scan_of_readable (machine : Machine) {line : String} (readable : Readable line.toList)
    {start : Nat} (inside : start ≤ line.length) :
    ∃ tokens count, Batch.Takes machine.dictionary (line.toList.drop start) tokens count ∧
      machine.scan line start = ⟨.ok ((start + count : Nat) : Int), machine.queueTokens tokens,
        tokens.map (.recorded ∘ .scanned)⟩ := by
  obtain ⟨count, takes, left⟩ := Batch.takes_cut machine.dictionary (readable.closed.drop start)
  refine ⟨_, count, takes, ?_⟩
  have opened : window line.toList start = .ok (line.toList.drop start) := by
    rw [window, if_pos (Int.natCast_nonneg start), Int.toNat_natCast]
  have bound := takes.count_le
  rw [List.length_drop, String.length_toList] at bound
  have stop : (line.length - (Batch.cut machine.dictionary (line.toList.drop start)).rest.length : Int) =
      (start + count : Nat) := by
    rw [left, List.drop_drop, List.length_drop, String.length_toList]
    omega
  rw [scan_of_window machine readable opened, stop]
  rfl

/-- Reading a line from a position on, again and again from where the last reading stopped, until
nothing is left of it. Each reading adds its stop to the list. -/
inductive ScansToEnd (line : String) : Machine → Int → List Int → Machine → Prop
  | finished {machine : Machine} {position : Int} :
      (line.length : Int) ≤ position → ScansToEnd line machine position [] machine
  | resumed {machine next last : Machine} {position stop : Int} {stops : List Int} {trace : Trace} :
      position < line.length → machine.scan line position = ⟨.ok stop, next, trace⟩ →
      ScansToEnd line next stop stops last → ScansToEnd line machine position (stop :: stops) last

/-- Nothing is left open about where the readings stop and what they leave. -/
theorem ScansToEnd.deterministic {line : String} {machine first second : Machine} {position : Int}
    {stops others : List Int} (left : ScansToEnd line machine position stops first)
    (right : ScansToEnd line machine position others second) : stops = others ∧ first = second := by
  induction left generalizing others second with
  | finished beyond =>
    cases right with
    | finished => exact ⟨rfl, rfl⟩
    | resumed before => omega
  | resumed before read _ ih =>
    cases right with
    | finished beyond => omega
    | resumed _ same rest =>
      rw [read] at same
      cases same
      obtain ⟨rfl, rfl⟩ := ih rest
      exact ⟨rfl, rfl⟩

/-- The stops of the readings, and what the last of them leaves. -/
private theorem scansToEnd_of_readable {line : String} (readable : Readable line.toList)
    (machine : Machine) {start : Nat} (inside : start ≤ line.length) :
    ∃ stops, ScansToEnd line machine start stops
        (machine.queueTokens
          ((graphicRuns (line.toList.drop start)).map (Token.ofText machine.dictionary))) ∧
      ((start : Int) :: stops).Pairwise (· < ·) ∧ (∀ stop ∈ stops, stop ≤ line.length) ∧
      ((start : Int) :: stops).getLast? = some (line.length : Int) := by
  -- Each reading leaves less of the line, since it takes at least one character.
  induction left : line.length - start using Nat.strongRecOn generalizing machine start with
  | ind size ih =>
    by_cases finished : start = line.length
    · subst finished
      have none : line.toList.drop line.length = [] :=
        List.drop_eq_nil_iff.mpr (Nat.le_of_eq String.length_toList)
      refine ⟨[], ?_, by simp, by simp, by simp⟩
      rw [none, graphicRuns_nil, List.map_nil, queueTokens_nil]
      exact .finished (Int.le_refl _)
    · obtain ⟨tokens, count, takes, read⟩ := scan_of_readable machine readable inside
      have some : line.toList.drop start ≠ [] := by
        rw [ne_eq, List.drop_eq_nil_iff, String.length_toList]
        omega
      have progress := takes.count_pos some
      have bound := takes.count_le
      rw [List.length_drop, String.length_toList] at bound
      obtain ⟨stops, loop, increasing, within, reached⟩ :=
        ih (line.length - (start + count)) (by omega) (machine.queueTokens tokens) (by omega) rfl
      have increase : (start : Int) < (start + count : Nat) := by omega
      refine ⟨((start + count : Nat) : Int) :: stops, ?_, ?_, ?_, ?_⟩
      · rw [takes.graphicRuns_eq, List.drop_drop, List.map_append, takes.map_ofText, queueTokens_append]
        exact .resumed (by omega) read loop
      · refine List.pairwise_cons.mpr ⟨fun stop member => ?_, increasing⟩
        rcases List.mem_cons.mp member with rfl | member
        · exact increase
        · exact Int.lt_trans increase ((List.pairwise_cons.mp increasing).1 stop member)
      · intro stop member
        rcases List.mem_cons.mp member with rfl | member
        · omega
        · exact within stop member
      · rw [List.getLast?_cons_cons]
        exact reached

/-- Read from a position to its end, a line that passes the checks is split into its runs of graphic
characters: the readings stop at ever later positions, the last of them at the end of the line, and
each run from the position on is queued once, in order, under the kind it is taken for. A single
reading takes the numbers that come next and the first run that is no number, and stops behind the
delimiter of that run, or at the end of the line. -/
theorem scan_resumed (machine : Machine) {line : String} (readable : Readable line.toList)
    {start : Nat} (inside : start ≤ line.length) :
    (∃ stops last, ScansToEnd line machine start stops last ∧
      ((start : Int) :: stops).Pairwise (· < ·) ∧ (∀ stop ∈ stops, stop ≤ line.length) ∧
      ((start : Int) :: stops).getLast? = some (line.length : Int) ∧
      last = machine.queueTokens
        ((graphicRuns (line.toList.drop start)).map (Token.ofText machine.dictionary)) ∧
      ∀ others other, ScansToEnd line machine start others other → others = stops ∧ other = last) ∧
    ∃ tokens count, Batch.Takes machine.dictionary (line.toList.drop start) tokens count ∧
      machine.scan line start = ⟨.ok ((start + count : Nat) : Int), machine.queueTokens tokens,
        tokens.map (.recorded ∘ .scanned)⟩ := by
  refine ⟨?_, scan_of_readable machine readable inside⟩
  obtain ⟨stops, loop, increasing, within, reached⟩ := scansToEnd_of_readable readable machine inside
  exact ⟨stops, _, loop, increasing, within, reached, rfl, fun _ _ other => other.deterministic loop⟩

/-- Started inside a line, behind a blank: two readings, which part at the word. -/
theorem scan_resumed_mixed :
    Readable " 1 x\t2 \n".toList ∧ 1 ≤ " 1 x\t2 \n".length ∧
      ∃ stops last, ScansToEnd " 1 x\t2 \n" empty.defineCore 1 stops last ∧
        last.tokens = [⟨"1", .number⟩, ⟨"x", .undefined⟩, ⟨"2", .number⟩] := by
  have readable : Readable " 1 x\t2 \n".toList := (ScanError.ofLine?_eq_none_iff _).mp (by decide)
  have inside : 1 ≤ " 1 x\t2 \n".length := by decide
  obtain ⟨⟨stops, last, loop, _, _, _, rfl, _⟩, _⟩ := scan_resumed empty.defineCore readable inside
  exact ⟨readable, inside, stops, _, loop, by decide +kernel⟩

end Machine

end LineForth
