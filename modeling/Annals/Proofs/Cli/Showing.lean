import Annals.Cli.Program
import Annals.Proofs.Json.RoundTrip

/-!
# What is shown of a text

A text is shown on a line of its own without the control sequences in it (`shownLine_eq`). Nothing is
left out of a report in JSON, which holds no escape character (`line_report`).
-/

namespace Annals

namespace Text

theorem length_takeWhile_lt {p : Char → Bool} {t rest : Text} {c : Char}
    (h : t.dropWhile p = c :: rest) : (t.takeWhile p).length < t.length := by
  have hlength := congrArg List.length (List.takeWhile_append_dropWhile (p := p) (l := t))
  rw [h, List.length_append, List.length_cons] at hlength
  omega

/-- A control sequence ends in the text that it begins. -/
theorem sequenceLength?_le {t : Text} {n : Nat} (h : sequenceLength? t = some n) : n ≤ t.length := by
  unfold sequenceLength? at h
  split at h
  · split at h
    · next hdrop =>
      split at h
      · have hlt := length_takeWhile_lt hdrop
        obtain rfl := Option.some.inj h
        simp only [List.length_cons]
        omega
      · exact nomatch h
    · exact nomatch h
  · exact nomatch h

theorem takeWhile_concat {p : Char → Bool} {c : Char} (hc : p c = false) (t : Text) :
    (t ++ [c]).takeWhile p = t.takeWhile p := by
  induction t with
  | nil => simp [hc]
  | cons d ds ih => simp only [List.cons_append, List.takeWhile_cons, ih]

theorem dropWhile_concat {p : Char → Bool} {c : Char} (hc : p c = false) (t : Text) :
    (t ++ [c]).dropWhile p = t.dropWhile p ++ [c] := by
  induction t with
  | nil => simp [hc]
  | cons d ds ih =>
    simp only [List.cons_append, List.dropWhile_cons, ih]
    split <;> rfl

/-- A newline ends no control sequence. -/
theorem sequenceLength?_append_newline (t : Text) :
    sequenceLength? (t ++ ['\n']) = sequenceLength? t := by
  have hnewline : isParameter '\n' = false := by decide
  unfold sequenceLength?
  rcases t with _ | ⟨c, cs⟩
  · rfl
  rw [List.cons_append]
  by_cases hc : c = '['
  · subst hc
    simp only [takeWhile_concat hnewline, dropWhile_concat hnewline]
    cases cs.dropWhile isParameter <;> rfl
  · split
    · next heq => exact absurd (List.cons.inj heq).1 hc
    · split
      · next heq => exact absurd (List.cons.inj heq).1 hc
      · rfl

/-- A newline at the end stays. -/
theorem dropSequencesAfter_append_newline {n : Nat} {t : Text} (h : n ≤ t.length) :
    dropSequencesAfter n (t ++ ['\n']) = dropSequencesAfter n t ++ ['\n'] := by
  induction t generalizing n with
  | nil =>
    obtain rfl : n = 0 := Nat.le_zero.1 h
    rfl
  | cons c cs ih =>
    cases n with
    | succ n => exact ih (Nat.le_of_succ_le_succ h)
    | zero =>
      have hrest := ih (Nat.zero_le cs.length)
      rw [List.cons_append, dropSequencesAfter, dropSequencesAfter, sequenceLength?_append_newline]
      by_cases hc : c = sequenceStart
      · rw [if_pos hc, if_pos hc]
        cases hlength : sequenceLength? cs with
        | none => rw [hrest, List.cons_append]
        | some n => exact ih (sequenceLength?_le hlength)
      · rw [if_neg hc, if_neg hc, hrest, List.cons_append]

end Text

namespace Cli

theorem shownLine_eq (t : Text) : shownLine t = Text.dropSequences t ++ ['\n'] :=
  Text.dropSequencesAfter_append_newline (Nat.zero_le t.length)

/-- What begins the line about a failure is shown as it is. -/
theorem shownLine_error (t : Text) : shownLine ("Error: " ++ t) = "Error: " ++ shownLine t := rfl

/-- What is written of a report: all of it in JSON, and otherwise what is left of it without control
sequences, on a line of its own. -/
def written (json : Bool) (j : Json) (plain : Text) : Bytes :=
  Utf8.encode ((if json then j.render else Text.dropSequences plain) ++ ['\n'])

theorem dropSequences_render (j : Json) : Text.dropSequences j.render = j.render := by
  refine Text.dropSequences_eq_self fun hmem => ?_
  rcases Json.isPrinted_render j _ hmem with h | h
  · exact absurd h (by decide)
  · exact absurd h.1 (by decide)

theorem line_report (json : Bool) (j : Json) (plain : Text) :
    line (if json then j.render else plain) = written json j plain := by
  rw [line, shownLine_eq, written]
  cases json with
  | true => rw [if_pos rfl, if_pos rfl, dropSequences_render]
  | false => rfl

end Cli

end Annals
