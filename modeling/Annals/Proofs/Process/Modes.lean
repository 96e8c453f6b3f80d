import Annals.Proofs.Process.Feeding
import Annals.Proofs.Process.Outcomes
import Annals.Proofs.Text.Newlines

/-!
# Capturing and streaming

A command gives its caller the same whether its output is captured or streamed, but that a streamed
output goes to the handler line by line and is not kept (`result_stream`). To say which lines those are,
a handler is watched: `Fed.recording` keeps the lines that it is given and is a handler like it in all
else (`all_recording`). A handler that takes every line is given the lines of the captured text; one
that refuses a line is given no other after it, and stops the process.

This is so for what the system makes of the command (`stream_agrees_capture`), but for a time limit that
is longer than it waits for: with that the command is rejected while its output is captured, and only then
(`not_always_agrees`).
-/

namespace Annals

variable {σ ε : Type}

namespace Fed

/-- The handler that keeps the lines that it is given. -/
def recording (feed : σ → Text → Fed σ ε) (s : σ × List Text) (line : Text) :
    Fed (σ × List Text) ε :=
  let one := feed s.1 line
  ⟨(one.state, s.2 ++ [line]), one.notes, one.failure?⟩

variable {feed : σ → Text → Fed σ ε}

/-- The lines that a handler is given: all up to the first that it refuses. -/
def given (feed : σ → Text → Fed σ ε) : σ → List Text → List Text
  | _, [] => []
  | s, line :: lines =>
    match (feed s line).failure? with
    | some _ => [line]
    | none => line :: given feed (feed s line).state lines

/-- A handler that is watched does what it does otherwise. -/
theorem all_recording (s : σ) (heard lines : List Text) :
    all (recording feed) (s, heard) lines =
      ⟨((all feed s lines).state, heard ++ given feed s lines), (all feed s lines).notes,
        (all feed s lines).failure?⟩ := by
  induction lines generalizing s heard with
  | nil => simp [all, given]
  | cons line lines ih =>
    cases hf : (feed s line).failure? with
    | some f =>
      simp only [all, given, recording, hf]
    | none =>
      have hrest := ih (feed s line).state (heard ++ [line])
      simp only [all, given, recording, hf] at hrest ⊢
      rw [hrest, List.append_assoc]
      rfl

theorem given_of_accepted {s : σ} {lines : List Text} (h : (all feed s lines).failure? = none) :
    given feed s lines = lines := by
  induction lines generalizing s with
  | nil => rfl
  | cons line lines ih =>
    cases hf : (feed s line).failure? with
    | some f =>
      simp only [all, hf] at h
      contradiction
    | none =>
      simp only [all, hf] at h
      rw [given, hf]
      exact congrArg (line :: ·) (ih h)

theorem given_of_refused {s : σ} {before : List Text} {line : Text} {f : ε}
    (hbefore : (all feed s before).failure? = none)
    (hline : (feed (all feed s before).state line).failure? = some f) (after : List Text) :
    given feed s (before ++ line :: after) = before ++ [line] := by
  induction before generalizing s with
  | nil =>
    have hfirst : (feed s line).failure? = some f := hline
    rw [List.nil_append, given, hfirst]
    rfl
  | cons first before ih =>
    cases hf : (feed s first).failure? with
    | some f' =>
      simp only [all, hf] at hbefore
      contradiction
    | none =>
      simp only [all, hf] at hbefore hline
      rw [List.cons_append, given, hf]
      exact congrArg (first :: ·) (ih hbefore hline)

end Fed

namespace Command

variable {c : Command} {o : Outcome} {feed : σ → Text → Fed σ ε}

theorem streamLimit?_eq_timeout (h : ∀ limit ∈ c.timeout, limit.isZero = false) :
    c.streamLimit? = c.timeout := by
  unfold streamLimit?
  split
  · next hnone => rw [hnone]
  · next limit hlimit =>
    rw [h limit hlimit, hlimit]
    rfl

/-- A handler that refuses a line stops the process, and its failure is what the caller sees, whether a
time limit has passed or not. -/
theorem stream_of_refused {e : Exit} {init : σ} {f : ε} (hprints : o.Prints e)
    (hfed : (Fed.all feed init (textLines e.stdout)).failure? = some f) :
    (c.stream o feed init).run.killed = true ∧ (c.stream o feed init).result = .ok (.error f) := by
  rcases hprints with rfl | rfl
  · simp [stream, hfed]
  · simp [stream, hfed]

theorem state_stream (c : Command) {e : Exit} (hprints : o.Prints e) (feed : σ → Text → Fed σ ε)
    (init : σ) :
    (c.stream o feed init).state = (Fed.all feed init (textLines e.stdout)).state := by
  rcases hprints with rfl | rfl
  · cases hfed : (Fed.all feed init (textLines e.stdout)).failure? <;> simp [stream, hfed]
  · cases hfed : (Fed.all feed init (textLines e.stdout)).failure? <;>
      cases hlimit : c.streamLimit? <;> simp [stream, hfed, hlimit]

/-- What the caller of a streamed command sees, if that of the captured one sees what is said: the same
without the output. -/
def unkept (result : Except CommandFault (Except ProcessFailure Result)) :
    Except CommandFault (Except ε (Except ProcessFailure Result)) :=
  result.map fun ended => .ok (ended.map fun r => { r with stdout := [] })

theorem prints_of_capture {r : Result} (h : (c.capture o).result = .ok (.ok r)) :
    ∃ e, o.Prints e ∧ r.stdout = e.stdout := by
  cases o with
  | rejected fault => exact nomatch h
  | unstartable fault =>
    cases hfault : c.notStarted fault <;> simp [capture, hfault, Except.map] at h
  | exits e =>
    obtain rfl := Except.ok.inj (Except.ok.inj h)
    exact ⟨e, Or.inl rfl, rfl⟩
  | hangs e =>
    cases htimeout : c.timeout with
    | some limit =>
      simp only [capture, htimeout] at h
      exact nomatch Except.ok.inj h
    | none =>
      simp only [capture, htimeout] at h
      obtain rfl := Except.ok.inj (Except.ok.inj h)
      exact ⟨e, Or.inr rfl, rfl⟩

/-- If the handler takes all lines, the caller sees the same as of the captured command, but for the
output. -/
theorem result_stream (htimeout : ∀ limit ∈ c.timeout, limit.isZero = false) {init : σ}
    (hfed : ∀ e, o.Prints e → (Fed.all feed init (textLines e.stdout)).failure? = none) :
    (c.stream o feed init).result = unkept (c.capture o).result := by
  have hlimit : c.streamLimit? = c.timeout := streamLimit?_eq_timeout htimeout
  cases o with
  | rejected fault => rfl
  | unstartable fault =>
    simp only [stream, capture, unkept]
    cases c.notStarted fault <;> rfl
  | exits e =>
    simp only [stream, capture, hfed e (Or.inl rfl)]
    rfl
  | hangs e =>
    simp only [stream, capture, hfed e (Or.inr rfl), hlimit]
    cases c.timeout <;> rfl

end Command

/-- With no time limit or one other than 0, a handler that takes every line leaves the caller with what
capturing the command gives, the failure and its words included, and is given the lines of the captured
text. Only a time limit that is longer than the system waits for makes a difference: the captured command
is rejected, and the streamed one gives what waiting without a bound would give. A handler that refuses a
line is given the lines up to it; the process is stopped, and the caller sees the handler's failure. -/
theorem Command.stream_agrees_capture (c : Command) (words : Text) (o : Outcome)
    (feed : σ → Text → Fed σ ε) (init : σ) (htimeout : ∀ limit ∈ c.timeout, limit.isZero = false) :
    let captured := (c.capture (c.faced .captured words o)).result
    let waited := (c.capture (c.faced .streamed words o)).result
    let out := c.stream (c.faced .streamed words o) feed init
    let watched := c.stream (c.faced .streamed words o) (Fed.recording feed) (init, [])
    let lines (e : Exit) := Text.linesOf (Utf8.decode e.stdout)
    captured = (if c.overstays o then .error (.overlong words) else waited) ∧
    ((∀ e, o.Prints e → (Fed.all feed init (lines e)).failure? = none) →
      out.result = unkept waited ∧
        (∀ message, (∃ f, out.result = .ok (.ok (.error f)) ∧ f.message = message) ↔
          ∃ f, waited = .ok (.error f) ∧ f.message = message) ∧
        ∀ r, waited = .ok (.ok r) →
          watched.state = (out.state, Text.linesOf (Utf8.decode r.stdout))) ∧
    ∀ e, (c.faced .streamed words o).Prints e → ∀ before line after f,
      lines e = before ++ line :: after → (Fed.all feed init before).failure? = none →
      (feed (Fed.all feed init before).state line).failure? = some f →
        watched.state = (out.state, before ++ [line]) ∧ out.run.killed = true ∧
          out.result = .ok (.error f) := by
  intro captured waited out watched lines
  have hlines (e : Exit) : textLines e.stdout = lines e := textLines_eq_linesOf e.stdout
  have hwatched {e : Exit} (hprints : (c.faced .streamed words o).Prints e) :
      watched.state = (out.state, Fed.given feed init (lines e)) := by
    have hstate := c.state_stream hprints (Fed.recording feed) (init, [])
    rw [Fed.all_recording, List.nil_append, ← c.state_stream hprints, hlines] at hstate
    exact hstate
  refine ⟨?_, fun hfed => ?_, ?_⟩
  · have hcaptured : captured = (c.capture _).result :=
      congrArg (fun o => (c.capture o).result) faced_captured
    rw [hcaptured]
    split
    · rfl
    · rfl
  · have hresult : out.result = unkept waited :=
      result_stream htimeout fun e hprints => (hlines e).symm ▸ hfed e (prints_of_faced hprints)
    refine ⟨hresult, fun message => ?_, fun r hr => ?_⟩
    · rw [hresult]
      rcases waited with fault | f | r
      · simp [unkept, Except.map]
      · simp [unkept, Except.map]
      · simp [unkept, Except.map]
    · obtain ⟨e, hprints, hstdout⟩ := prints_of_capture hr
      rw [hwatched hprints, Fed.given_of_accepted (hfed e (prints_of_faced hprints)), hstdout]
  · intro e hprints before line after f hcut hbefore hline
    have hrefused : (Fed.all feed init (textLines e.stdout)).failure? = some f := by
      rw [hlines, hcut]
      exact Fed.failure?_all_eq_some_iff.2 ⟨before, line, after, rfl, hbefore, hline⟩
    refine ⟨?_, stream_of_refused hprints hrefused⟩
    rw [hwatched hprints, hcut, Fed.given_of_refused hbefore hline]

/-- A carriage return, a character that breaks off before a newline, and a last line without one; and a
process that hangs, whose second line is refused. -/
theorem Command.stream_agrees_capture_of_three_lines :
    let c : Command := { argv := ["git", "log"], timeout := some (.ofInt 5) }
    let e : Exit := ⟨3, [0x61, 0x0D, 0x0A, 0xE2, 0x82, 0x0A, 0x62], [0xFF]⟩
    let lines : List Text := ["a\r", "\ufffd", "b"]
    let count (refused n : Nat) (line : Text) : Fed Nat Text :=
      { state := n + 1, failure? := if n = refused then some line else none }
    (∀ limit ∈ c.timeout, limit.isZero = false) ∧
      (c.stream (.exits e) (count 9) 0).result = .ok (.ok (.ok ⟨3, [], ['\ufffd']⟩)) ∧
      (c.stream (.exits e) (Fed.recording (count 9)) (0, [])).state = (3, lines) ∧
      (c.stream (.hangs e) (Fed.recording (count 1)) (0, [])).state = (2, lines.take 2) ∧
      (c.stream (.hangs e) (count 1) 0).result = .ok (.error ['\ufffd']) := by
  intro c e lines count
  have htimeout : ∀ limit ∈ c.timeout, limit.isZero = false := by decide
  have hfaced (o : Outcome) : c.faced .streamed [] o = o := by
    rfl
  have hexits := stream_agrees_capture c [] (.exits e) (count 9) 0 htimeout
  have hhangs := stream_agrees_capture c [] (.hangs e) (count 1) 0 htimeout
  simp only [hfaced] at hexits hhangs
  obtain ⟨-, htaken, -⟩ := hexits
  obtain ⟨hresult, -, hgiven⟩ := htaken (by
    rintro e' (h | h)
    · obtain rfl := Outcome.exits.inj h
      decide
    · exact nomatch h)
  obtain ⟨-, -, hrefused⟩ := hhangs
  obtain ⟨hheard, -, hfailure⟩ := hrefused e (Or.inr rfl) ["a\r".toList] ['\ufffd'] ["b".toList]
    ['\ufffd'] (by decide) (by decide) (by decide)
  exact ⟨htimeout, hresult, hgiven _ rfl, hheard, hfailure⟩

/-- With a time limit of 25 days, a command that prints nothing and exits at once is streamed to its end,
but not captured. -/
theorem Command.not_always_agrees :
    ¬∀ (c : Command) (words : Text) (o : Outcome), (∀ limit ∈ c.timeout, limit.isZero = false) →
      ∀ feed : Unit → Text → Fed Unit Text,
        (∀ e, o.Prints e → (Fed.all feed () (Text.linesOf (Utf8.decode e.stdout))).failure? = none) →
          (c.stream (c.faced .streamed words o) feed ()).result =
            unkept (c.capture (c.faced .captured words o)).result := by
  intro h
  let c : Command := { argv := ["git", "--version"], timeout := some (.ofInt 2160000) }
  have hboth := h c "timeout is too large" (.exits {}) (by decide) (fun s _ => ⟨s, [], none⟩) (by
    rintro e (he | he)
    · obtain rfl := Outcome.exits.inj he
      rfl
    · exact nomatch he)
  have hlong : c.overstays (.exits {}) = true := TimeLimit.isOverlong_ofInt 2160000
  rw [faced_captured, if_pos hlong] at hboth
  exact nomatch hboth

end Annals
