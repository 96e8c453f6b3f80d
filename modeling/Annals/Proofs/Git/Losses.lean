import Annals.Proofs.Git.Blocks

/-!
# Blame output with a line missing

What is read when the first line of a block, or the line of the file at its end, is missing from blame
output. Behind a missing header no block can begin. Behind a missing line of the file the block goes on
and takes in the next one (`Block.swallow`), so that all later numbers are one too high: the block after
that is refused, unless there is none (`isNoticed_iff`). So of all lines only the last but one of the
lines of the file can be missing without notice; the last line is then attributed to the wrong revision
(`not_isNoticed`).
-/

namespace Annals.Git

/-! ## Lines of headers -/

namespace BlockHeader

/-- A header begins with two digits of its hash. -/
theorem exists_line_eq (h : BlockHeader) : ∃ c d rest, h.line = c :: d :: rest ∧ c ∈ h.hash ∧
    d ∈ h.hash := by
  have hlong : 2 ≤ h.hash.length := by
    have hlength := h.hash_length
    omega
  obtain ⟨c, d, hash, hhash⟩ : ∃ c d hash, h.hash = c :: d :: hash := by
    cases hcases : h.hash with
    | nil => simp [hcases] at hlong
    | cons c hash =>
      cases hash with
      | nil => simp [hcases] at hlong
      | cons d hash => exact ⟨c, d, hash, rfl⟩
  refine ⟨c, d, hash ++ ' ' :: Text.join [' '] (h.oldNumber :: h.number :: h.count?.toList), ?_, ?_, ?_⟩
  · rw [line, fields, Text.join, List.intercalate_cons_cons, hhash]
    simp [Text.join]
  · simp [hhash]
  · simp [hhash]

theorem head?_line (h : BlockHeader) : h.line.head? ≠ some '\t' := by
  obtain ⟨c, d, rest, hline, hc, -⟩ := h.exists_line_eq
  intro hhead
  rw [hline, List.head?_cons] at hhead
  obtain rfl := Option.some.inj hhead
  exact absurd (h.hash_digits _ hc) (by decide)

/-- No header looks like the line of an author. -/
theorem after?_author_line (h : BlockHeader) : Text.after? "author " h.line = none := by
  obtain ⟨c, d, rest, hline, -, hd⟩ := h.exists_line_eq
  cases hafter : Text.after? "author " h.line with
  | none => rfl
  | some name =>
    have hauthor : c :: d :: rest = 'a' :: 'u' :: ("thor ".toList ++ name) :=
      hline.symm.trans (Text.after?_eq_some_iff.1 hafter)
    obtain rfl : d = 'u' := (List.cons.inj (List.cons.inj hauthor).2).1
    exact absurd (h.hash_digits _ hd) (by decide)

end BlockHeader

/-! ## Blocks with a line missing -/

namespace Block

/-- The lines between which a block stands. -/
inductive Edge where
  | header
  | content
  deriving DecidableEq

/-- The lines of a block without one of those at its ends. -/
def linesWithout (b : Block) : Edge → List Text
  | .header => b.lines.tail
  | .content => b.lines.dropLast

theorem linesWithout_content (b : Block) : b.linesWithout .content = b.header.line :: b.body := by
  rw [linesWithout, lines, ← List.cons_append, List.dropLast_concat]

/-- Two blocks as they are read if the line of the file between them is missing. -/
def swallow (b c : Block) : Block where
  header := b.header
  body := b.body ++ c.header.line :: c.body
  content := c.content
  body_plain := by
    have hrest : ∀ line ∈ c.header.line :: c.body, line.head? ≠ some '\t' :=
      List.forall_mem_cons.2 ⟨c.header.head?_line, c.body_plain⟩
    exact List.forall_mem_append.2 ⟨b.body_plain, hrest⟩

theorem lines_swallow (b c : Block) : (b.swallow c).lines = b.linesWithout .content ++ c.lines := by
  simp [linesWithout_content, swallow, lines]

theorem authorAfter_append (author : Text) (first second : List Text) :
    authorAfter author (first ++ second) = authorAfter (authorAfter author first) second := by
  simp only [authorAfter, List.filterMap_append, List.getLast?_append]
  cases (second.filterMap (Text.after? "author ")).getLast? <;> rfl

/-- The line of the file is that of the second block, the revision is that of the first. -/
theorem record_swallow (b c : Block) (n : Nat) : (b.swallow c).record n =
    ⟨n, b.header.hash, authorAfter (authorAfter [] b.body) c.body, c.content⟩ := by
  have hauthor : authorAfter [] (b.swallow c).body =
      authorAfter (authorAfter [] b.body) c.body := by
    rw [swallow, authorAfter_append, BlameReader.authorAfter_cons, c.header.after?_author_line,
      Option.getD_none]
  rw [record, hauthor]
  rfl

/-- Only what stands in the headers matters to numbers. -/
theorem areNumbered_swallow {n : Nat} {before : List Block} {b c : Block}
    (h : AreNumbered n (before ++ [b])) : AreNumbered n (before ++ [b.swallow c]) := by
  rw [BlameReader.areNumbered_concat] at h ⊢
  exact h

theorem areNumbered_append {n : Nat} {before after : List Block} :
    AreNumbered n (before ++ after) ↔
      AreNumbered n before ∧ AreNumbered (n + before.length) after := by
  simp only [AreNumbered, List.zipIdx_append, List.forall_mem_append]

end Block

namespace BlameReader

variable {r : BlameReader} {line : Text} {lines : List Text}

/-- The annotation that a reader reads of further lines. -/
def readOn (r : BlameReader) (lines : List Text) : Except Failure Annotation :=
  let fed := Fed.all feed r lines
  match fed.failure? with
  | some f => .error f
  | none => fed.state.annotation

theorem readOn_of_refused {f : Failure} (h : (r.feed line).failure? = some f) (lines : List Text) :
    r.readOn (line :: lines) = .error f := by
  simp only [readOn, Fed.all, h]

/-- Behind blocks the reader goes on as one that has read their records. -/
theorem exists_read_append {blocks : List Block} (hn : Block.AreNumbered 1 blocks)
    (filename : Text) : ∃ author, ∀ rest, read filename (blocks.flatMap Block.lines ++ rest) =
      readOn ⟨filename, Block.records 1 blocks, none, author⟩ rest := by
  obtain ⟨author, hall⟩ := all_blocks (r := { filename }) rfl hn
  refine ⟨author, fun rest => ?_⟩
  have htaken : (Fed.all feed { filename } (blocks.flatMap Block.lines)).failure? = none := by
    rw [hall]
  rw [read, Fed.all_append htaken, hall]
  rfl

theorem length_records (n : Nat) (blocks : List Block) :
    (Block.records n blocks).length = blocks.length := by
  rw [Block.records, List.length_map, List.length_zipIdx]

theorem records_concat (n : Nat) (blocks : List Block) (b : Block) :
    Block.records n (blocks ++ [b]) = Block.records n blocks ++ [b.record (n + blocks.length)] := by
  simp [Block.records, List.zipIdx_append]

/-! ## Lines that cannot begin a block -/

theorem isMalformed_of_not_header (hr : r.revision? = none) (h : blockHeader? line = none) :
    ∃ f, (r.feed line).failure? = some f ∧ f.IsMalformed := by
  rw [feed_of_outside hr, openBlock, h]
  exact ⟨_, rfl, _, rfl⟩

/-- A header with another number than the next one is refused. -/
theorem isMalformed_of_bears (hr : r.revision? = none) {h : BlockHeader} {n : Nat} (hn : h.Bears n)
    (hother : n ≠ r.lines.length + 1) : ∃ f, (r.feed h.line).failure? = some f ∧ f.IsMalformed := by
  have hvalue : ¬h.number.digitsValue = r.lines.length + 1 := by
    rw [hn.2]
    exact hother
  rw [feed_of_outside hr, openBlock, h.blockHeader?_line]
  dsimp only
  rw [if_neg (Nat.not_lt.2 hn.1), if_neg hvalue]
  exact ⟨_, rfl, _, rfl⟩

/-- A line that is read as a header begins as one is printed. -/
theorem exists_line_prefix {found : Text × Text} (h : blockHeader? line = some found) :
    ∃ b : BlockHeader, b.line <+: line := by
  obtain ⟨t, ht, hfields⟩ := Option.bind_eq_some_iff.1 h
  have hprefix : t <+: line ∧ '\n' ∉ t := by
    unfold oneLine? at ht
    obtain ⟨hplain, ht⟩ := Option.ite_none_left_eq_some.1 ht
    obtain rfl := Option.some.inj ht
    refine ⟨?_, by simpa using hplain⟩
    split
    · exact List.dropLast_prefix line
    · exact List.prefix_refl line
  have hread : blockHeader? t = some found := by
    rw [blockHeader?, oneLine?_of_notMem hprefix.2]
    exact hfields
  obtain ⟨b, rfl, -⟩ := BlockHeader.exists_of_blockHeader? hprefix.2 hread
  exact ⟨b, hprefix.1⟩

/-- The line of the file is not read as a header. -/
theorem blockHeader?_content (content : Text) : blockHeader? ('\t' :: content) = none := by
  cases h : blockHeader? ('\t' :: content) with
  | none => rfl
  | some found =>
    obtain ⟨b, rest, hline⟩ := exists_line_prefix h
    obtain ⟨c, d, tail, hb, -⟩ := b.exists_line_eq
    have hhead := b.head?_line
    rw [hb, List.cons_append] at hline
    rw [hb, (List.cons.inj hline).1] at hhead
    exact absurd rfl hhead

/-! ## Blocks with a line missing -/

/-- Whether it is noticed of lines that they are no blame output. -/
def IsNoticed (filename : Text) (lines : List Text) : Prop :=
  ∃ f, read filename lines = .error f ∧ f.IsMalformed

theorem readOn_of_isMalformed (h : ∃ f, (r.feed line).failure? = some f ∧ f.IsMalformed)
    (lines : List Text) : ∃ f, r.readOn (line :: lines) = .error f ∧ f.IsMalformed := by
  obtain ⟨f, hf, hmalformed⟩ := h
  exact ⟨f, readOn_of_refused hf lines, hmalformed⟩

/-- Blocks of which one has lost the line at one of its ends. -/
def linesAround (before : List Block) (b : Block) (edge : Block.Edge) (after : List Block) :
    List Text :=
  before.flatMap Block.lines ++ (b.linesWithout edge ++ after.flatMap Block.lines)

variable {filename : Text} {before after : List Block} {b : Block}

theorem isNoticed_of_header (hn : Block.AreNumbered 1 before)
    (hbody : ∀ line ∈ b.body, blockHeader? line = none) (rest : List Text) :
    IsNoticed filename (before.flatMap Block.lines ++ (b.linesWithout .header ++ rest)) := by
  obtain ⟨author, hread⟩ := exists_read_append hn filename
  have hheader : b.linesWithout .header = b.body ++ ['\t' :: b.content] := rfl
  rw [IsNoticed, hread, hheader]
  cases hlines : b.body with
  | nil => exact readOn_of_isMalformed (isMalformed_of_not_header rfl (blockHeader?_content _)) _
  | cons line body =>
    have hline : blockHeader? line = none := hbody line (by rw [hlines]; exact List.mem_cons_self)
    exact readOn_of_isMalformed (isMalformed_of_not_header rfl hline) _

/-- If the last line is missing, the last block has no end. -/
theorem isNoticed_of_end (hn : Block.AreNumbered 1 (before ++ [b])) :
    IsNoticed filename (before.flatMap Block.lines ++ (b.linesWithout .content ++ [])) := by
  obtain ⟨hbefore, hnumber⟩ := areNumbered_concat.1 hn
  obtain ⟨author, hread⟩ := exists_read_append hbefore filename
  have hbears : b.header.Bears ((Block.records 1 before).length + 1) := by
    rwa [length_records, Nat.add_comm]
  rw [IsNoticed, hread, b.linesWithout_content, readOn, List.append_nil,
    Fed.all_cons (feed_header rfl hbears)]
  have hbody := all_body (r := ⟨filename, Block.records 1 before, some b.header.hash, []⟩) rfl
    b.body_plain []
  rw [List.append_nil] at hbody
  rw [hbody]
  exact ⟨_, rfl, _, rfl⟩

/-- If the line of the file between the last two blocks is missing, they are read as one. -/
theorem read_of_swallow {last : Block} (hn : Block.AreNumbered 1 (before ++ [b])) :
    read filename (before.flatMap Block.lines ++ (b.linesWithout .content ++ last.lines)) =
      .ok ⟨filename, Block.records 1 (before ++ [b.swallow last])⟩ := by
  apply read_of_spell
  refine ⟨Block.areNumbered_swallow hn, ?_⟩
  rw [List.flatMap_append, List.flatMap_singleton, Block.lines_swallow]

/-- If another line of the file is missing, the block after the next has a number that is too high. -/
theorem isNoticed_of_content {next other : Block}
    (hn : Block.AreNumbered 1 (before ++ b :: next :: other :: after)) :
    IsNoticed filename
      (before.flatMap Block.lines ++
        (b.linesWithout .content ++ (next :: other :: after).flatMap Block.lines)) := by
  obtain ⟨hbefore, hrest⟩ := Block.areNumbered_append.1 hn
  obtain ⟨hb, hrest⟩ := areNumbered_cons.1 hrest
  obtain ⟨-, hrest⟩ := areNumbered_cons.1 hrest
  obtain ⟨hother, -⟩ := areNumbered_cons.1 hrest
  have hread : Block.AreNumbered 1 (before ++ [b.swallow next]) :=
    Block.areNumbered_swallow (areNumbered_concat.2 ⟨hbefore, hb⟩)
  obtain ⟨author, hread⟩ := exists_read_append hread filename
  have hlines : before.flatMap Block.lines ++
      (b.linesWithout .content ++ (next :: other :: after).flatMap Block.lines) =
      (before ++ [b.swallow next]).flatMap Block.lines ++
        (other.lines ++ after.flatMap Block.lines) := by
    simp only [List.flatMap_append, List.flatMap_cons, List.flatMap_nil, Block.lines_swallow,
      List.append_nil, List.append_assoc]
  rw [IsNoticed, hlines, hread]
  apply readOn_of_isMalformed
  apply isMalformed_of_bears rfl hother
  rw [length_records, List.length_append, List.length_singleton]
  omega

/-- A missing line is noticed, unless it is the last but one of the lines of the file. -/
theorem isNoticed_linesAround {edge : Block.Edge} (hn : Block.AreNumbered 1 (before ++ b :: after))
    (hbody : ∀ line ∈ b.body, blockHeader? line = none)
    (hedge : ¬(edge = .content ∧ after.length = 1)) :
    IsNoticed filename (linesAround before b edge after) := by
  cases edge with
  | header => exact isNoticed_of_header (Block.areNumbered_append.1 hn).1 hbody _
  | content =>
    cases after with
    | nil => exact isNoticed_of_end hn
    | cons next after =>
      cases after with
      | nil => exact absurd ⟨rfl, rfl⟩ hedge
      | cons other after => exact isNoticed_of_content hn

/-- If the last but one of the lines of the file is missing, the last one is read in its place. -/
theorem read_linesAround {last : Block} (hn : Block.AreNumbered 1 (before ++ [b, last])) :
    read filename (linesAround before b .content [last]) =
      .ok ⟨filename, Block.records 1 before ++
        [⟨before.length + 1, b.header.hash,
          Block.authorAfter (Block.authorAfter [] b.body) last.body, last.content⟩]⟩ := by
  have hfirst : Block.AreNumbered 1 (before ++ [b]) := by
    rw [List.append_cons] at hn
    exact (Block.areNumbered_append.1 hn).1
  rw [linesAround, List.flatMap_singleton, read_of_swallow hfirst, records_concat,
    Block.record_swallow, Nat.add_comm]
  rfl

/-- A missing header or a missing line of the file is noticed, unless it is the last but one of the lines
of the file. Then there is an annotation that is one record short, and in which the last line has the
revision of the one before it. -/
theorem isNoticed_iff (filename : Text) (before after : List Block) (b : Block) (edge : Block.Edge)
    (hn : Block.AreNumbered 1 (before ++ b :: after))
    (hbody : ∀ c ∈ before ++ b :: after, ∀ line ∈ c.body, blockHeader? line = none) :
    (IsNoticed filename (linesAround before b edge after) ↔
      ¬(edge = .content ∧ after.length = 1)) ∧
    ∀ last, edge = .content → after = [last] →
      read filename (linesAround before b edge after) =
        .ok ⟨filename, Block.records 1 before ++
          [⟨before.length + 1, b.header.hash,
            Block.authorAfter (Block.authorAfter [] b.body) last.body, last.content⟩]⟩ := by
  refine ⟨⟨?_, ?_⟩, ?_⟩
  · rintro ⟨f, hf, -⟩ ⟨rfl, hone⟩
    obtain ⟨last, rfl⟩ := List.length_eq_one_iff.1 hone
    rw [read_linesAround hn] at hf
    exact nomatch hf
  · intro hedge
    exact isNoticed_linesAround hn (hbody b (List.mem_append_right _ List.mem_cons_self)) hedge
  · rintro last rfl rfl
    exact read_linesAround hn

/-- A line by Ann, the first of a file. -/
def annLine : Block where
  header :=
    { hash := List.replicate 40 'a', oldNumber := "1", number := "1", count? := some ['1']
      hash_digits := (isHash_iff.1 (by decide)).1, hash_length := by decide
      oldNumber_numeral := by decide, number_numeral := by decide, count_numeral := by decide }
  body := ["author Ann"]
  content := "one"
  body_plain := by decide

/-- A line by Bob, the second of a file. -/
def bobLine : Block where
  header :=
    { hash := List.replicate 40 'b', oldNumber := "2", number := "2", count? := some ['1']
      hash_digits := (isHash_iff.1 (by decide)).1, hash_length := by decide
      oldNumber_numeral := by decide, number_numeral := by decide, count_numeral := by decide }
  body := ["author Bob", "summary aa 1 1"]
  content := "two"
  body_plain := by decide

/-- The end of the output is missed; the end of Ann's line is not, and Bob's line is given to her
revision. -/
theorem isNoticed_iff_of_two :
    Block.AreNumbered 1 [annLine, bobLine] ∧
    (∀ c ∈ [annLine, bobLine], ∀ line ∈ c.body, blockHeader? line = none) ∧
    IsNoticed "f" (linesAround [annLine] bobLine .content []) ∧
    read "f" (linesAround [] annLine .content [bobLine]) =
      .ok ⟨"f", [⟨1, List.replicate 40 'a', "Bob", "two"⟩]⟩ := by
  have hn : Block.AreNumbered 1 [annLine, bobLine] := by decide
  have hbody : ∀ c ∈ [annLine, bobLine], ∀ line ∈ c.body, blockHeader? line = none := by decide
  refine ⟨hn, hbody, ?_, ?_⟩
  · exact (isNoticed_iff "f" [annLine] [] bobLine .content hn hbody).1.2 (by decide)
  · exact (isNoticed_iff "f" [] [bobLine] annLine .content hn hbody).2 bobLine rfl rfl

/-- The last but one of the lines of a file can be missing without notice. -/
theorem not_isNoticed :
    ¬∀ (filename : Text) (before after : List Block) (b : Block) (edge : Block.Edge),
      Block.AreNumbered 1 (before ++ b :: after) →
      (∀ c ∈ before ++ b :: after, ∀ line ∈ c.body, blockHeader? line = none) →
      IsNoticed filename (linesAround before b edge after) := by
  intro hclaim
  obtain ⟨f, hf, -⟩ := hclaim "f" [] [bobLine] annLine .content (by decide) (by decide)
  rw [read_linesAround (by decide)] at hf
  exact nomatch hf

end BlameReader

end Annals.Git
