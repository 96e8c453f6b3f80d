import Annals.Proofs.Git.Blame
import Annals.Proofs.Git.Log
import Annals.Proofs.Text.Fields

/-!
# Blocks of a blame

The grammar of blame output, as data. A `BlockHeader` is the first line of a block, a `Block` is all that
is printed about one line of the file, and `Block.Spell` says which lines are blocks that are numbered
from 1 on. The reader takes exactly such lines, and reads one record of each block (`read_blocks`).

The invariant behind it is `Taken`: lines that were taken are numbered blocks, perhaps with the beginning
of one more. Every line that is taken preserves it (`Taken.feed`), and so do any number of lines
(`Taken.all`).
-/

namespace Annals.Git

/-- Whether a text is one or more decimal digits. -/
def IsNumeral (t : Text) : Prop := t ≠ [] ∧ ∀ c ∈ t, isDigit c = true

/-- The first line of a block, field by field. -/
structure BlockHeader where
  hash : Text
  oldNumber : Text
  /-- The number of the line of the file, as it is written. -/
  number : Text
  /-- How many lines in a row are of the same revision, where that is said. -/
  count? : Option Text
  hash_digits : ∀ c ∈ hash, ('0' ≤ c ∧ c ≤ '9') ∨ ('a' ≤ c ∧ c ≤ 'f')
  hash_length : hash.length = 40 ∨ hash.length = 64
  oldNumber_numeral : IsNumeral oldNumber
  number_numeral : IsNumeral number
  count_numeral : ∀ count ∈ count?, IsNumeral count

namespace BlockHeader

def fields (h : BlockHeader) : List Text := h.hash :: h.oldNumber :: h.number :: h.count?.toList

/-- The line as it is printed, with a blank between any two fields. -/
def line (h : BlockHeader) : Text := Text.join [' '] h.fields

/-- Whether a header has a number, in digits that are not too many to be read. -/
def Bears (h : BlockHeader) (n : Nat) : Prop :=
  h.number.length ≤ maxDigits ∧ h.number.digitsValue = n

instance (h : BlockHeader) (n : Nat) : Decidable (h.Bears n) := inferInstanceAs (Decidable (_ ∧ _))

end BlockHeader

/-- All lines about one line of the file: the header, lines about the revision, and the line of the file
behind a tab. -/
structure Block where
  header : BlockHeader
  body : List Text
  content : Text
  body_plain : ∀ line ∈ body, line.head? ≠ some '\t'

namespace Block

def lines (b : Block) : List Text := b.header.line :: (b.body ++ ['\t' :: b.content])

/-- The author that some lines about a revision tell, or the one known before. -/
def authorAfter (author : Text) (body : List Text) : Text :=
  (body.filterMap (Text.after? "author ")).getLast?.getD author

/-- The attribution of the line of the file that a block is about. -/
def record (b : Block) (n : Nat) : AnnotatedLine :=
  ⟨n, b.header.hash, authorAfter [] b.body, b.content⟩

/-- Whether blocks are numbered one after the other, from a number on. -/
def AreNumbered (n : Nat) (blocks : List Block) : Prop :=
  ∀ p ∈ blocks.zipIdx n, p.1.header.Bears p.2

instance (n : Nat) (blocks : List Block) : Decidable (AreNumbered n blocks) :=
  inferInstanceAs (Decidable (∀ p ∈ blocks.zipIdx n, _))

/-- The records of blocks that are numbered from a number on. -/
def records (n : Nat) (blocks : List Block) : List AnnotatedLine :=
  (blocks.zipIdx n).map fun p => p.1.record p.2

/-- Whether blocks are numbered from 1 on and are printed as some lines. -/
def Spell (blocks : List Block) (lines : List Text) : Prop :=
  AreNumbered 1 blocks ∧ blocks.flatMap Block.lines = lines

end Block

/-! ## Headers -/

theorem isNumber_iff {t : Text} : isNumber t = true ↔ IsNumeral t := by
  simp [isNumber, IsNumeral]

instance (t : Text) : Decidable (IsNumeral t) := decidable_of_iff _ isNumber_iff

theorem isHash_iff {t : Text} : isHash t = true ↔
    (∀ c ∈ t, ('0' ≤ c ∧ c ≤ '9') ∨ ('a' ≤ c ∧ c ≤ 'f')) ∧ (t.length = 40 ∨ t.length = 64) := by
  simp [isHash, isHashDigit]

/-- A numeral holds no character that is not a digit. -/
theorem IsNumeral.notMem {t : Text} (h : IsNumeral t) {c : Char} (hc : isDigit c = false) : c ∉ t := by
  intro hmem
  have hdigit : isDigit c = true := h.2 c hmem
  rw [hc] at hdigit
  contradiction

namespace BlockHeader

theorem notMem_hash (h : BlockHeader) {c : Char} (hc : c = ' ' ∨ c = '\n') : c ∉ h.hash := by
  intro hmem
  have hdigit := h.hash_digits c hmem
  rcases hc with rfl | rfl
  · exact absurd hdigit (by decide)
  · exact absurd hdigit (by decide)

theorem notMem_fields (h : BlockHeader) {c : Char} (hc : c = ' ' ∨ c = '\n') :
    ∀ t ∈ h.fields, c ∉ t := by
  have hdigit : isDigit c = false := by rcases hc with rfl | rfl <;> decide
  intro t ht
  simp only [fields, List.mem_cons, Option.mem_toList] at ht
  rcases ht with rfl | rfl | rfl | ht
  · exact h.notMem_hash hc
  · exact h.oldNumber_numeral.notMem hdigit
  · exact h.number_numeral.notMem hdigit
  · exact (h.count_numeral t ht).notMem hdigit

/-- A header is read as it was printed. -/
theorem blockHeader?_line (h : BlockHeader) : blockHeader? h.line = some (h.hash, h.number) := by
  have honeLine : '\n' ∉ h.line :=
    Text.notMem_join (by decide) (h.notMem_fields (Or.inr rfl))
  have hfields : Text.fields ' ' h.line = h.fields :=
    Text.fields_join (List.cons_ne_nil _ _) (h.notMem_fields (Or.inl rfl))
  have hhash : isHash h.hash = true := isHash_iff.2 ⟨h.hash_digits, h.hash_length⟩
  have hold : isNumber h.oldNumber = true := isNumber_iff.2 h.oldNumber_numeral
  have hnumber : isNumber h.number = true := isNumber_iff.2 h.number_numeral
  rw [blockHeader?, oneLine?_of_notMem honeLine, Option.bind_some, hfields, fields]
  cases hcount : h.count? with
  | none => exact if_pos ⟨hhash, hold, hnumber⟩
  | some count =>
    have hlast : isNumber count = true := isNumber_iff.2 (h.count_numeral count hcount)
    exact if_pos ⟨hhash, hold, hnumber, hlast⟩

/-- What is read as a header was printed as one. -/
theorem exists_of_blockHeader? {line hash number : Text} (hline : '\n' ∉ line)
    (h : blockHeader? line = some (hash, number)) :
    ∃ b : BlockHeader, b.line = line ∧ b.hash = hash ∧ b.number = number := by
  have hjoin : Text.join [' '] (Text.fields ' ' line) = line := Text.join_fields ' ' line
  rw [blockHeader?, oneLine?_of_notMem hline, Option.bind_some] at h
  split at h
  · next first old last hfields =>
    split at h
    · next hparts =>
      obtain ⟨rfl, rfl⟩ := Prod.mk.inj (Option.some.inj h)
      obtain ⟨hdigits, hlength⟩ := isHash_iff.1 hparts.1
      rw [hfields] at hjoin
      exact ⟨⟨first, old, last, none, hdigits, hlength, isNumber_iff.1 hparts.2.1,
        isNumber_iff.1 hparts.2.2, nofun⟩, hjoin, rfl, rfl⟩
    · exact nomatch h
  · next first old last count hfields =>
    split at h
    · next hparts =>
      obtain ⟨rfl, rfl⟩ := Prod.mk.inj (Option.some.inj h)
      obtain ⟨hdigits, hlength⟩ := isHash_iff.1 hparts.1
      rw [hfields] at hjoin
      refine ⟨⟨first, old, last, some count, hdigits, hlength, isNumber_iff.1 hparts.2.1,
        isNumber_iff.1 hparts.2.2.1, ?_⟩, hjoin, rfl, rfl⟩
      intro other hother
      obtain rfl := Option.some.inj hother
      exact isNumber_iff.1 hparts.2.2.2
    · exact nomatch h
  · exact nomatch h

end BlockHeader

/-! ## Lines -/

namespace BlameReader

variable {r : BlameReader} {line : Text} {lines : List Text}

theorem feed_of_outside (hr : r.revision? = none) (line : Text) : r.feed line = r.openBlock line := by
  rw [feed, hr]

theorem feed_of_inside {revision : Text} (hr : r.revision? = some revision) (line : Text) :
    r.feed line = ⟨r.extendBlock revision line, [], none⟩ := by
  rw [feed, hr]

theorem feed_header (hr : r.revision? = none) {h : BlockHeader} (hn : h.Bears (r.lines.length + 1)) :
    r.feed h.line = ⟨{ r with revision? := some h.hash, author := [] }, [], none⟩ := by
  rw [feed_of_outside hr, openBlock, h.blockHeader?_line]
  dsimp only
  rw [if_neg (Nat.not_lt.2 hn.1), if_pos hn.2]

/-- A line that is taken where a block is to begin is the header of the next block. -/
theorem exists_header_of_feed (hr : r.revision? = none) (hline : '\n' ∉ line)
    (hok : (r.feed line).failure? = none) : ∃ h : BlockHeader, h.line = line ∧
      h.Bears (r.lines.length + 1) := by
  rw [feed_of_outside hr, openBlock] at hok
  split at hok
  · exact nomatch hok
  · next hash number hheader =>
    obtain ⟨h, rfl, rfl, rfl⟩ := BlockHeader.exists_of_blockHeader? hline hheader
    split at hok
    · exact nomatch hok
    · next hlength =>
      split at hok
      · next hnumber => exact ⟨h, rfl, Nat.not_lt.1 hlength, hnumber⟩
      · exact nomatch hok

theorem feed_plain {revision : Text} (hr : r.revision? = some revision)
    (hplain : line.head? ≠ some '\t') :
    r.feed line =
      ⟨{ r with author := (Text.after? "author " line).getD r.author }, [], none⟩ := by
  rw [feed_of_inside hr, extendBlock.eq_def]
  split
  · exact absurd rfl hplain
  · cases Text.after? "author " line <;> rfl

theorem feed_content {revision : Text} (hr : r.revision? = some revision) (content : Text) :
    r.feed ('\t' :: content) =
      ⟨{ r with
          lines := r.lines ++ [⟨r.lines.length + 1, revision, r.author, content⟩]
          revision? := none }, [], none⟩ :=
  feed_of_inside hr _

/-- A line that is refused leaves the reader as it was. -/
theorem state_feed_of_refused {f : Failure} (h : (r.feed line).failure? = some f) :
    (r.feed line).state = r := by
  obtain ⟨hr, hopen⟩ := failure?_feed h
  rw [feed_of_outside hr]
  unfold openBlock at hopen ⊢
  split
  · rfl
  · next hash number hheader =>
    simp only [hheader] at hopen
    split
    · rfl
    · next hlength =>
      rw [if_neg hlength] at hopen
      split
      · next hnumber =>
        rw [if_pos hnumber] at hopen
        exact nomatch hopen
      · rfl

/-! ## Blocks are taken -/

theorem authorAfter_cons (author line : Text) (body : List Text) :
    Block.authorAfter author (line :: body) =
      Block.authorAfter ((Text.after? "author " line).getD author) body := by
  unfold Block.authorAfter
  cases hline : Text.after? "author " line with
  | none => rw [List.filterMap_cons_none hline, Option.getD_none]
  | some told => rw [List.filterMap_cons_some hline, List.getLast?_cons, Option.getD_some, Option.getD_some]

theorem all_body {revision : Text} (hr : r.revision? = some revision) {body : List Text}
    (hbody : ∀ line ∈ body, line.head? ≠ some '\t') (rest : List Text) :
    Fed.all feed r (body ++ rest) =
      Fed.all feed { r with author := Block.authorAfter r.author body } rest := by
  induction body generalizing r with
  | nil => rfl
  | cons line body ih =>
    obtain ⟨hline, hbody⟩ := List.forall_mem_cons.1 hbody
    rw [List.cons_append, Fed.all_cons (feed_plain hr hline), authorAfter_cons]
    exact ih hr hbody

/-- A block with the next number is taken whole, and adds its record. -/
theorem all_block (hr : r.revision? = none) {b : Block} (hn : b.header.Bears (r.lines.length + 1))
    (rest : List Text) :
    Fed.all feed r (b.lines ++ rest) =
      Fed.all feed
        ⟨r.filename, r.lines ++ [b.record (r.lines.length + 1)], none,
          Block.authorAfter [] b.body⟩ rest := by
  have hopened : ({ r with revision? := some b.header.hash, author := [] } : BlameReader).revision? =
      some b.header.hash := rfl
  rw [Block.lines, List.cons_append, Fed.all_cons (feed_header hr hn), List.append_assoc,
    all_body hopened b.body_plain, List.cons_append, List.nil_append,
    Fed.all_cons (feed_content rfl b.content)]
  rfl

theorem areNumbered_cons {n : Nat} {b : Block} {blocks : List Block} :
    Block.AreNumbered n (b :: blocks) ↔ b.header.Bears n ∧ Block.AreNumbered (n + 1) blocks := by
  simp only [Block.AreNumbered, List.zipIdx_cons, List.forall_mem_cons]

theorem areNumbered_concat {n : Nat} {b : Block} {blocks : List Block} :
    Block.AreNumbered n (blocks ++ [b]) ↔
      Block.AreNumbered n blocks ∧ b.header.Bears (n + blocks.length) := by
  simp only [Block.AreNumbered, List.zipIdx_append, List.forall_mem_append, List.zipIdx_singleton,
    List.forall_mem_singleton]

/-- Blocks that go on with the numbers are taken, and add a record each. -/
theorem all_blocks {blocks : List Block} (hr : r.revision? = none)
    (hn : Block.AreNumbered (r.lines.length + 1) blocks) :
    ∃ author, Fed.all feed r (blocks.flatMap Block.lines) =
      ⟨⟨r.filename, r.lines ++ Block.records (r.lines.length + 1) blocks, none, author⟩, [], none⟩ := by
  induction blocks generalizing r with
  | nil =>
    obtain ⟨filename, lines, revision?, author⟩ := r
    obtain rfl : revision? = none := hr
    exact ⟨author, by simp [Block.records, Fed.all]⟩
  | cons b blocks ih =>
    obtain ⟨hfirst, hrest⟩ := areNumbered_cons.1 hn
    rw [List.flatMap_cons, all_block hr hfirst]
    obtain ⟨author, hall⟩ := ih (r := ⟨r.filename, r.lines ++ [b.record (r.lines.length + 1)], none,
      Block.authorAfter [] b.body⟩) rfl (by simpa using hrest)
    refine ⟨author, hall.trans ?_⟩
    simp [Block.records, List.zipIdx_cons]

/-! ## What is taken are blocks -/

/-- Lines that a reader has taken, and the reader after them: numbered blocks, perhaps with the beginning
of the next one. -/
inductive Taken : List Text → BlameReader → Prop where
  | between {r : BlameReader} (blocks : List Block) : Block.AreNumbered 1 blocks →
    r.lines.length = blocks.length → r.revision? = none → Taken (blocks.flatMap Block.lines) r
  | inside {r : BlameReader} (blocks : List Block) (header : BlockHeader) (body : List Text) :
    Block.AreNumbered 1 blocks → header.Bears (1 + blocks.length) →
    (∀ line ∈ body, line.head? ≠ some '\t') → r.lines.length = blocks.length →
    r.revision? = some header.hash →
      Taken (blocks.flatMap Block.lines ++ header.line :: body) r

namespace Taken

theorem feed (h : Taken lines r) (hline : '\n' ∉ line) (hok : (r.feed line).failure? = none) :
    Taken (lines ++ [line]) (r.feed line).state := by
  cases h with
  | between blocks hn hlength hr =>
    obtain ⟨header, rfl, hnumber⟩ := exists_header_of_feed hr hline hok
    rw [feed_header hr hnumber]
    rw [hlength, Nat.add_comm] at hnumber
    exact .inside blocks header [] hn hnumber nofun hlength rfl
  | inside blocks header body hn hnumber hbody hlength hr =>
    rw [List.append_assoc, List.cons_append]
    by_cases hplain : line.head? = some '\t'
    · -- the line of the file closes the block
      obtain ⟨content, rfl⟩ := List.head?_eq_some_iff.1 hplain
      let b : Block := ⟨header, body, content, hbody⟩
      have hblocks : (blocks ++ [b]).flatMap Block.lines =
          blocks.flatMap Block.lines ++ header.line :: (body ++ ['\t' :: content]) := by
        simp [b, Block.lines]
      rw [feed_content hr, ← hblocks]
      apply Taken.between
      · exact areNumbered_concat.2 ⟨hn, hnumber⟩
      · simp [hlength]
      · rfl
    · rw [feed_plain hr hplain]
      apply Taken.inside
      · exact hn
      · exact hnumber
      · exact List.forall_mem_append.2 ⟨hbody, List.forall_mem_singleton.2 hplain⟩
      · exact hlength
      · exact hr

theorem all (h : Taken lines r) {rest : List Text} (hrest : ∀ line ∈ rest, '\n' ∉ line)
    (hok : (Fed.all BlameReader.feed r rest).failure? = none) :
    Taken (lines ++ rest) (Fed.all BlameReader.feed r rest).state := by
  induction rest generalizing lines r with
  | nil => simpa [Fed.all] using h
  | cons line rest ih =>
    obtain ⟨hline, hrest⟩ := List.forall_mem_cons.1 hrest
    cases hf : (r.feed line).failure? with
    | some f =>
      simp only [Fed.all, hf] at hok
      contradiction
    | none =>
      simp only [Fed.all, hf] at hok ⊢
      have hstep := ih (h.feed hline hf) hrest hok
      rwa [List.append_assoc] at hstep

end Taken

/-! ## Whole annotations -/

/-- The annotation that a fresh reader reads of lines. -/
def read (filename : Text) (lines : List Text) : Except Failure Annotation :=
  let fed := Fed.all feed { filename } lines
  match fed.failure? with
  | some f => .error f
  | none => fed.state.annotation

theorem read_of_spell {blocks : List Block} (h : Block.Spell blocks lines) (filename : Text) :
    read filename lines = .ok ⟨filename, Block.records 1 blocks⟩ := by
  obtain ⟨hn, rfl⟩ := h
  have hall := all_blocks (r := { filename }) rfl hn
  obtain ⟨author, hall⟩ := hall
  rw [read, hall]
  rfl

theorem exists_spell_of_read {filename : Text} {a : Annotation} (hlines : ∀ line ∈ lines, '\n' ∉ line)
    (h : read filename lines = .ok a) : ∃ blocks, Block.Spell blocks lines := by
  have hempty : Taken [] ({ filename } : BlameReader) := .between [] nofun rfl rfl
  rw [read] at h
  split at h
  · exact nomatch h
  · next hok =>
    have htaken := hempty.all hlines hok
    rw [List.nil_append] at htaken
    -- an annotation is only given where no block has begun
    unfold annotation at h
    split at h
    · next hnone =>
      generalize hstate : (Fed.all feed { filename } lines).state = r at htaken hnone
      cases htaken with
      | between blocks hn hlength hr => exact ⟨blocks, hn, rfl⟩
      | inside blocks header body hn hnumber hbody hlength hr =>
        rw [hr] at hnone
        exact nomatch hnone
    · exact nomatch h

/-- Lines are read as an annotation exactly if they are blocks that are numbered from 1 on, and what is
read are their records. All other lines are refused, at one of them or at their end. A line that is
refused leaves the reader as it was. -/
theorem read_blocks (filename : Text) (lines : List Text) (h : ∀ line ∈ lines, '\n' ∉ line) :
    ((∃ a, read filename lines = .ok a) ↔ ∃ blocks, Block.Spell blocks lines) ∧
    (∀ blocks, Block.Spell blocks lines →
      read filename lines = .ok ⟨filename, Block.records 1 blocks⟩) ∧
    ((¬∃ blocks, Block.Spell blocks lines) → ∃ f, read filename lines = .error f) ∧
    ∀ (r : BlameReader) (line : Text) (f : Failure), (r.feed line).failure? = some f →
      (r.feed line).state = r := by
  have hiff : (∃ a, read filename lines = .ok a) ↔ ∃ blocks, Block.Spell blocks lines := by
    constructor
    · rintro ⟨a, ha⟩
      exact exists_spell_of_read h ha
    · rintro ⟨blocks, hblocks⟩
      exact ⟨_, read_of_spell hblocks filename⟩
  refine ⟨hiff, fun blocks hblocks => read_of_spell hblocks filename, ?_, ?_⟩
  · intro hnone
    cases hread : read filename lines with
    | ok a => exact absurd (hiff.1 ⟨a, hread⟩) hnone
    | error f => exact ⟨f, rfl⟩
  · intro r line f hf
    exact state_feed_of_refused hf

/-- Two blocks: one with two authors and a line of the file that begins with a tab, and one with a hash of
the other length, a number in other digits and no author. -/
theorem read_blocks_of_two :
    let short : Text := List.replicate 40 'a'
    let long : Text := List.replicate 64 '0'
    let lines : List Text :=
      [short ++ " 7 01 2", "author Ann", "author-mail <ann@x>", "author Bob", "\t\tcode",
        long ++ " 9 ٢", "summary \tauthor Ann", "\t"]
    (∀ line ∈ lines, '\n' ∉ line) ∧
      read "f" lines = .ok ⟨"f", [⟨1, short, "Bob", "\tcode"⟩, ⟨2, long, [], []⟩]⟩ := by
  intro short long lines
  let first : Block :=
    { header :=
        { hash := short, oldNumber := "7", number := "01", count? := some ['2']
          hash_digits := (isHash_iff.1 (by decide)).1, hash_length := by decide
          oldNumber_numeral := by decide, number_numeral := by decide, count_numeral := by decide }
      body := ["author Ann", "author-mail <ann@x>", "author Bob"]
      content := "\tcode", body_plain := by decide }
  let second : Block :=
    { header :=
        { hash := long, oldNumber := "9", number := "٢", count? := none
          hash_digits := (isHash_iff.1 (by decide)).1, hash_length := by decide
          oldNumber_numeral := by decide, number_numeral := by decide, count_numeral := nofun }
      body := ["summary \tauthor Ann"], content := [], body_plain := by decide }
  have hlines : ∀ line ∈ lines, '\n' ∉ line := by decide
  have hspell : Block.Spell [first, second] lines := ⟨by decide, by decide⟩
  exact ⟨hlines, (read_blocks "f" lines hlines).2.1 [first, second] hspell⟩

end BlameReader

end Annals.Git
