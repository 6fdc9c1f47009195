import LineForth.Proofs.Reading

/-! # Reading from any position

A reading goes along the positions of a line one by one. Positions from zero on are counted from its
beginning and negative ones from its end, so a reading that starts before zero comes to the end of the
line and goes on at its beginning (`Batch.Walks`). What it passes over is a line of its own, which passes
the checks as the line does (`Text.readable_passage`). `Machine.scan_from` says for every line and every
position whether the reading is refused, and for what; and otherwise what it reads and where it stops,
which is what a reading of that other line comes to, but for the shift.
-/

namespace LineForth

open Text

def Text.at? (text : List Char) (position : Int) : Option Char :=
  if 0 ≤ position then text[position.toNat]?
  else if -text.length ≤ position then text[(text.length + position).toNat]?
  else none

/-- What a reading from a position passes over, as a line of its own. -/
def Text.passage (line : String) (start : Int) : String :=
  if 0 ≤ start then String.ofList (line.toList.drop start.toNat)
  else String.ofList (line.toList.drop (line.length + start).toNat) ++ line

/-- A walk along a line from a position on, in the middle of a run of these characters, the latest one
first: the tokens that it reads and the position that it stops at. -/
inductive Batch.Walks (dictionary : Dictionary) (line : List Char) :
    Int → List Char → List Token → Int → Prop
  | atEnd {position : Int} {pending : List Char} :
      line.length ≤ position → Walks dictionary line position pending [] line.length
  | graphic {position stop : Int} {pending : List Char} {tokens : List Token} {c : Char} :
      at? line position = some c → isGraphic c = true →
      Walks dictionary line (position + 1) (c :: pending) tokens stop →
      Walks dictionary line position pending tokens stop
  | idle {position stop : Int} {tokens : List Token} {c : Char} :
      at? line position = some c → isGraphic c = false →
      Walks dictionary line (position + 1) [] tokens stop →
      Walks dictionary line position [] tokens stop
  | number {position stop : Int} {pending : List Char} {tokens : List Token} {c : Char} :
      at? line position = some c → isGraphic c = false → pending ≠ [] →
      TokenKind.classify dictionary (String.ofList pending.reverse) = .number →
      Walks dictionary line (position + 1) [] tokens stop →
      Walks dictionary line position pending
        (Token.ofText dictionary (String.ofList pending.reverse) :: tokens) stop
  | word {position : Int} {pending : List Char} {c : Char} :
      at? line position = some c → isGraphic c = false → pending ≠ [] →
      TokenKind.classify dictionary (String.ofList pending.reverse) ≠ .number →
      Walks dictionary line position pending
        [Token.ofText dictionary (String.ofList pending.reverse)] (position + 1)

/-- Why no reading of a line starts at a position: the line is checked before the position is. -/
inductive Machine.RefusesScan (line : String) (start : Int) : Halt → Prop
  | nonAscii {c : Char} : c ∈ line.toList → 127 < c.toNat →
      RefusesScan line start (.ofScan .nonAscii line)
  | unterminated {c : Char} : (∀ c ∈ line.toList, c.toNat ≤ 127) →
      line.toList.getLast? = some c → isGraphic c = true →
      RefusesScan line start (.ofScan .missingTrailingWhitespace line)
  | before : Readable line.toList → start < -line.length →
      RefusesScan line start (.defect (refuseStart start))

theorem Text.isAscii_iff {c : Char} : isAscii c = true ↔ c.toNat ≤ 127 := by
  simp only [isAscii, decide_eq_true_eq, UInt32.lt_iff_toNat_lt, Char.toNat]
  exact Nat.lt_succ_iff

section Positions

variable {line : List Char} {position : Int}

theorem Text.at?_of_end (beyond : line.length ≤ position) : at? line position = none := by
  rw [at?, if_pos (by omega), List.getElem?_eq_none (by omega)]

theorem Text.at?_of_before (before : position < -line.length) : at? line position = none := by
  rw [at?, if_neg (by omega), if_neg (by omega)]

namespace Machine

theorem window_of_before (before : position < -line.length) :
    window line position = .error (refuseStart position) := by
  rw [window, if_neg (by omega), if_pos before]

theorem window_of_le (within : -line.length ≤ position) (negative : position < 0) :
    window line position = .ok (line.drop (line.length + position).toNat ++ line) := by
  rw [window, if_neg (by omega), if_neg (by omega)]

theorem window_of_nonneg (nonneg : 0 ≤ position) :
    window line position = .ok (line.drop position.toNat) := if_pos nonneg

/-- Nothing is passed over exactly from the positions behind the last character. -/
theorem window_nil_iff : window line position = .ok [] ↔ line.length ≤ position := by
  rcases Int.lt_or_le position 0 with negative | nonneg
  · rcases Int.lt_or_le position (-line.length) with before | within
    · rw [window_of_before before]
      exact iff_of_false (by simp) (by omega)
    · have some : line ≠ [] := by
        rintro rfl
        simp only [List.length_nil] at within
        omega
      rw [window_of_le within negative]
      exact iff_of_false (by simp [some]) (by omega)
  · rw [window_of_nonneg nonneg, Except.ok.injEq, List.drop_eq_nil_iff]
    omega

/-- Passing over a character is going on from the next position. -/
theorem window_cons {c : Char} {rest : List Char} (opened : window line position = .ok (c :: rest)) :
    at? line position = some c ∧ window line (position + 1) = .ok rest := by
  have split {text others : List Char} {count : Nat} {first : Char}
      (same : text.drop count = first :: others) :
      text[count]? = some first ∧ text.drop (count + 1) = others := by
    rw [← List.head?_drop, ← List.tail_drop, same]
    exact ⟨rfl, rfl⟩
  rcases Int.lt_or_le position 0 with negative | nonneg
  · rcases Int.lt_or_le position (-line.length) with before | within
    · rw [window_of_before before] at opened
      contradiction
    · rw [window_of_le within negative, Except.ok.injEq] at opened
      have some : line.drop (line.length + position).toNat ≠ [] := by
        rw [ne_eq, List.drop_eq_nil_iff]
        omega
      obtain ⟨first, others, same⟩ := List.exists_cons_of_ne_nil some
      obtain ⟨found, left⟩ := split same
      rw [same, List.cons_append, List.cons.injEq] at opened
      obtain ⟨rfl, rfl⟩ := opened
      refine ⟨by rw [at?, if_neg (by omega), if_pos within, found], ?_⟩
      have next : (line.length + (position + 1)).toNat = (line.length + position).toNat + 1 := by omega
      by_cases last : position = -1
      -- From the last character the reading comes to the beginning of the line.
      · subst last
        have none : others = [] := by
          rw [← left, List.drop_eq_nil_iff]
          omega
        rw [none]
        rfl
      · rw [window_of_le (by omega) (by omega), next, left]
  · rw [window_of_nonneg nonneg, Except.ok.injEq] at opened
    obtain ⟨found, left⟩ := split opened
    refine ⟨by rw [at?, if_pos nonneg, found], ?_⟩
    rw [window_of_nonneg (by omega), show (position + 1).toNat = position.toNat + 1 by omega, left]

/-- As many characters are passed over as there are positions up to the end. -/
theorem length_of_window {text : List Char} (opened : window line position = .ok text)
    (inside : position ≤ line.length) : (text.length : Int) = line.length - position := by
  induction text generalizing position with
  | nil =>
    have beyond := window_nil_iff.mp opened
    simp only [List.length_nil]
    omega
  | cons c rest ih =>
    have more : position < line.length := by
      by_contra beyond
      rw [window_nil_iff.mpr (by omega), Except.ok.injEq] at opened
      contradiction
    have left := ih (window_cons opened).2 (by omega)
    rw [List.length_cons]
    omega

end Machine

end Positions

namespace Batch

variable {dictionary : Dictionary} {line : List Char} {position stop : Int} {tokens : List Token}

/-- A walk reads the batch that is cut off what it passes over, and stops as far before the end of the
line as the batch leaves characters. -/
theorem walks_iff {pending text : List Char} (opened : Machine.window line position = .ok text) :
    Walks dictionary line position pending tokens stop ↔
      tokens = (cutFrom dictionary pending text).tokens ∧
      stop = line.length - (cutFrom dictionary pending text).rest.length := by
  induction text generalizing position pending tokens with
  | nil =>
    have beyond := Machine.window_nil_iff.mp opened
    have none := at?_of_end beyond
    constructor
    · intro walk
      cases walk <;> simp_all [cutFrom]
    · rintro ⟨rfl, rfl⟩
      simpa [cutFrom] using Walks.atEnd beyond
  | cons c rest ih =>
    obtain ⟨found, later⟩ := Machine.window_cons opened
    have more : position < line.length := by
      by_contra beyond
      rw [at?_of_end (by omega)] at found
      contradiction
    cases kind : isGraphic c with
    | true =>
      rw [cutFrom_graphic dictionary rest kind, ← ih later]
      refine ⟨fun walk => ?_, .graphic found kind⟩
      cases walk with
      | atEnd beyond => omega
      | graphic here _ next =>
        rw [found] at here
        cases here
        exact next
      | idle here delimiter => simp_all
      | number here delimiter => simp_all
      | word here delimiter => simp_all
    | false =>
      by_cases begun : pending = []
      · subst begun
        rw [cutFrom_idle dictionary rest kind, cut, ← ih later]
        refine ⟨fun walk => ?_, .idle found kind⟩
        cases walk with
        | atEnd beyond => omega
        | graphic here visible => simp_all
        | idle _ _ next => exact next
        | number _ _ begun => contradiction
        | word _ _ begun => contradiction
      · by_cases number : TokenKind.classify dictionary (String.ofList pending.reverse) = .number
        · rw [cutFrom_number dictionary rest kind begun number]
          constructor
          · intro walk
            cases walk with
            | atEnd beyond => omega
            | graphic here visible => simp_all
            | idle => contradiction
            | number _ _ _ _ next =>
              obtain ⟨rfl, rfl⟩ := (ih later).mp next
              exact ⟨rfl, rfl⟩
            | word _ _ _ word => contradiction
          · rintro ⟨rfl, rfl⟩
            exact .number found kind begun number ((ih later).mpr ⟨rfl, rfl⟩)
        · rw [cutFrom_word dictionary rest kind begun number]
          have left := Machine.length_of_window later (by omega)
          have behind : (line.length - rest.length : Int) = position + 1 := by omega
          rw [behind]
          constructor
          · intro walk
            cases walk with
            | atEnd beyond => omega
            | graphic here visible => simp_all
            | idle => contradiction
            | number _ _ _ number => contradiction
            | word => exact ⟨rfl, rfl⟩
          · rintro ⟨rfl, rfl⟩
            exact .word found kind begun number

end Batch

section Shift

variable {line : String} {start : Int}

theorem Text.window_eq_passage (within : -line.length ≤ start) :
    Machine.window line.toList start = .ok (passage line start).toList := by
  have size : (line.toList.length : Int) = line.length := by rw [String.length_toList]
  rcases Int.lt_or_le start 0 with negative | nonneg
  · rw [Machine.window_of_le (by omega) negative, passage, if_neg (by omega), String.toList_append,
      String.toList_ofList, size]
  · rw [Machine.window_of_nonneg nonneg, passage, if_pos nonneg, String.toList_ofList]

/-- From its first position on, all of a line is passed over. -/
theorem Machine.window_zero (line : List Char) : window line 0 = .ok line := rfl

theorem Text.length_passage (within : -line.length ≤ start) (inside : start ≤ line.length) :
    ((passage line start).length : Int) = line.length - start := by
  rw [← String.length_toList, ← @String.length_toList line]
  exact Machine.length_of_window (window_eq_passage within) (by rwa [String.length_toList])

/-- What is passed over in a line that passes the checks is a line that passes them. -/
theorem Text.readable_passage (readable : Readable line.toList) (start : Int) :
    Readable (passage line start).toList := by
  rw [passage]
  split
  · rw [String.toList_ofList]
    exact readable.drop _
  · rw [String.toList_append, String.toList_ofList]
    exact (readable.drop _).append readable

end Shift

namespace Machine

variable (machine : Machine) {line : String} {start : Int}

theorem queueTokens_inj {machine : Machine} {first second : List Token}
    (same : machine.queueTokens first = machine.queueTokens second) : first = second :=
  List.append_cancel_left (congrArg Machine.tokens same)

/-- The checks come to a refusal, or the reading starts. -/
theorem refused_or_within (line : String) (start : Int) :
    (∃ cause, RefusesScan line start cause) ∨ Readable line.toList ∧ -line.length ≤ start := by
  by_cases ascii : ∀ c ∈ line.toList, c.toNat ≤ 127
  · by_cases closed : Closed line.toList
    · have readable : Readable line.toList := ⟨fun c member => isAscii_iff.mpr (ascii c member), closed⟩
      rcases Int.lt_or_le start (-line.length) with before | within
      · exact .inl ⟨_, .before readable before⟩
      · exact .inr ⟨readable, within⟩
    · obtain ⟨c, last, visible⟩ : ∃ c, line.toList.getLast? = some c ∧ isGraphic c = true := by
        simpa [Closed] using closed
      exact .inl ⟨_, .unterminated ascii last visible⟩
  · obtain ⟨c, member, beyond⟩ : ∃ c ∈ line.toList, 127 < c.toNat := by simpa using ascii
    exact .inl ⟨_, .nonAscii member beyond⟩

theorem scan_of_refuses {cause : Halt} (refused : RefusesScan line start cause) :
    machine.scan line start = .halt cause machine := by
  cases refused with
  | @nonAscii c member beyond =>
    have mixed : line.toList.all isAscii = false :=
      List.all_eq_false.mpr ⟨c, member, fun ascii => absurd (isAscii_iff.mp ascii) (by omega)⟩
    simp only [scan, ScanError.ofLine?, mixed, Bool.not_false, ↓reduceIte]
  | unterminated ascii last visible =>
    have plain : line.toList.all isAscii = true :=
      List.all_eq_true.mpr fun c member => isAscii_iff.mpr (ascii c member)
    simp only [scan, ScanError.ofLine?, plain, last, Option.any_some, visible, Bool.not_true,
      Bool.false_eq_true, ↓reduceIte]
  | before readable before =>
    have passed := (ScanError.ofLine?_eq_none_iff line.toList).mpr readable
    have closed : window line.toList start = .error (refuseStart start) :=
      window_of_before (by rwa [String.length_toList])
    simp only [scan, passed, closed]

/-- A reading of a line that passes the checks is a walk along it, if it starts at all. -/
theorem scan_eq_reads_iff (readable : Readable line.toList) (tokens : List Token) (stop : Int) :
    machine.scan line start = machine.reads tokens stop ↔
      Batch.Walks machine.dictionary line.toList start [] tokens stop := by
  rcases Int.lt_or_le start (-line.length) with before | within
  · rw [scan_of_refuses machine (.before readable before)]
    refine iff_of_false (fun same => by simp [Run.halt, reads] at same) fun walk => ?_
    have none : at? line.toList start = none := at?_of_before (by rwa [String.length_toList])
    cases walk with
    | atEnd beyond =>
      rw [String.length_toList] at beyond
      omega
    | _ found =>
      rw [none] at found
      contradiction
  · rw [Batch.walks_iff (window_eq_passage within),
      scan_of_window machine readable (window_eq_passage within),
      String.length_toList]
    constructor
    · intro same
      obtain ⟨stops, queues, _⟩ := Run.mk.inj same
      exact ⟨(queueTokens_inj queues).symm, (Except.ok.inj stops).symm⟩
    · rintro ⟨rfl, rfl⟩
      rfl

/-- Every reading of every line is accounted for. It is refused for what `RefusesScan` names and for
nothing else, and leaves the machine alone then. A line that passes the checks is walked along from the
position on; from any position on or before its end this queues the same tokens as reading what is passed
over as a line of its own, and stops as much further on as the position says; behind its end nothing is
left to read. -/
theorem scan_from (line : String) (start : Int) :
    (∀ cause, (machine.scan line start).result = .error cause ↔ RefusesScan line start cause) ∧
    (∀ cause, (machine.scan line start).result = .error cause →
      machine.scan line start = .halt cause machine) ∧
    (Readable line.toList →
      (∀ tokens stop, machine.scan line start = machine.reads tokens stop ↔
        Batch.Walks machine.dictionary line.toList start [] tokens stop) ∧
      (-line.length ≤ start → start ≤ line.length → ∃ tokens stop,
        machine.scan (passage line start) 0 = machine.reads tokens stop ∧
        machine.scan line start = machine.reads tokens (stop + start)) ∧
      (line.length < start → machine.scan line start = machine.reads [] line.length)) := by
  have refused (cause : Halt) (stopped : (machine.scan line start).result = .error cause) :
      RefusesScan line start cause := by
    rcases refused_or_within line start with ⟨other, refused⟩ | ⟨readable, within⟩
    · rw [scan_of_refuses machine refused] at stopped
      cases stopped
      exact refused
    · rw [scan_of_window machine readable (window_eq_passage within)] at stopped
      contradiction
  refine ⟨fun cause => ⟨refused cause, fun refuses => ?_⟩,
    fun cause stopped => scan_of_refuses machine (refused cause stopped), fun readable =>
      ⟨scan_eq_reads_iff machine readable, fun within inside => ?_, fun beyond => ?_⟩⟩
  · rw [scan_of_refuses machine refuses]
    rfl
  · have size := length_passage within inside
    refine ⟨_, _, scan_of_window machine (readable_passage readable start) (window_zero _), ?_⟩
    rw [scan_of_window machine readable (window_eq_passage within)]
    congr 1
    omega
  · refine (scan_eq_reads_iff machine readable [] line.length).mpr ?_
    rw [← String.length_toList]
    exact .atEnd (by rw [String.length_toList]; omega)

/-- A reading that comes past the end of its line, one that starts behind it and one that starts before it. -/
theorem scan_from_wrapping :
    Readable "1 DUP 2 \n".toList ∧ -("1 DUP 2 \n".length : Int) ≤ -3 ∧ (-3 : Int) ≤ "1 DUP 2 \n".length ∧
      ("1 DUP 2 \n".length : Int) < 10 ∧
      empty.defineCore.scan "1 DUP 2 \n" (-3) =
        empty.defineCore.reads [⟨"2", .number⟩, ⟨"1", .number⟩, ⟨"DUP", .word⟩] 6 ∧
      empty.defineCore.scan "1 DUP 2 \n" 10 = empty.defineCore.reads [] 9 ∧
      empty.defineCore.scan "1 DUP 2 \n" (-10) = .halt (.defect .startBeforeLine) empty.defineCore := by
  have readable : Readable "1 DUP 2 \n".toList := (ScanError.ofLine?_eq_none_iff _).mp (by decide)
  have within : -("1 DUP 2 \n".length : Int) ≤ -3 := by decide
  have inside : (-3 : Int) ≤ "1 DUP 2 \n".length := by decide
  have beyond : ("1 DUP 2 \n".length : Int) < 10 := by decide
  obtain ⟨tokens, stop, first, second⟩ :=
    ((scan_from empty.defineCore "1 DUP 2 \n" (-3)).2.2 readable).2.1 within inside
  have read : tokens = [⟨"2", .number⟩, ⟨"1", .number⟩, ⟨"DUP", .word⟩] :=
    (congrArg (·.machine.tokens) first).symm.trans (by decide +kernel)
  have stopped : stop = 9 := by
    have value : (empty.defineCore.scan (passage "1 DUP 2 \n" (-3)) 0).result = .ok 9 := by decide +kernel
    rw [first] at value
    exact Except.ok.inj value
  subst read stopped
  have refused : RefusesScan "1 DUP 2 \n" (-10) (.defect .startBeforeLine) := .before readable (by decide)
  obtain ⟨refuses, unchanged, _⟩ := scan_from empty.defineCore "1 DUP 2 \n" (-10)
  exact ⟨readable, within, inside, beyond, second,
    ((scan_from empty.defineCore "1 DUP 2 \n" 10).2.2 readable).2.2 beyond,
    unchanged _ ((refuses _).mpr refused)⟩

end Machine

end LineForth
