import Annals.Proofs.Json.Reader

/-!
# Values that are printed and read

Reading undoes printing, but that a pair of surrogates in a text is read as the code point that they stand
for: `read?_render` says so of every value, and `isAscii_render` that what is printed is ASCII. For both
there is one statement each for a value, the items of a list and the fields of an object. For reading it
holds whatever stands behind what was printed, as long as that does not go on with a number, and with any
number of steps beyond the length of what was printed. So values have one text exactly if they are the same
but for pairs of surrogates (`render_eq_iff`).
-/

namespace Annals.Json

/-! ## Values without pairs of surrogates -/

mutual

/-- The value with the pairs of surrogates in its texts joined. -/
def joined : Json → Json
  | null => null
  | bool b => bool b
  | number n => number n
  | text t => text t.joined
  | list items => list (joinedItems items)
  | object fields => object (joinedFields fields)

def joinedItems : List Json → List Json
  | [] => []
  | item :: items => joined item :: joinedItems items

def joinedFields : List (RawText × Json) → List (RawText × Json)
  | [] => []
  | (name, value) :: fields => (name.joined, joined value) :: joinedFields fields

end

theorem joined_list (items : List Json) : joined (list items) = list (items.map joined) := by
  rw [joined]
  refine congrArg list ?_
  induction items with
  | nil => rfl
  | cons item items ih => rw [joinedItems, ih, List.map_cons]

theorem joined_object (fields : List (RawText × Json)) :
    joined (object fields) = object (fields.map fun field => (field.1.joined, field.2.joined)) := by
  rw [joined]
  refine congrArg object ?_
  induction fields with
  | nil => rfl
  | cons field fields ih => rw [joinedFields, ih, List.map_cons]

theorem quote_joined (t : RawText) : quote t.joined = quote t := by
  rw [quote, flatMap_escape_joined, quote]

mutual

/-- A pair of surrogates is printed as what it stands for. -/
theorem print_joined : ∀ (level : Nat) (j : Json), print level j.joined = print level j
  | _, .null => rfl
  | _, .bool _ => rfl
  | _, .number _ => rfl
  | _, .text t => quote_joined t
  | _, .list [] => rfl
  | level, .list (item :: items) => by
    have hitem := print_joined (level + 1) item
    have hitems := printItems_joined (level + 1) items
    simp only [joined, joinedItems, print, hitem, hitems]
  | _, .object [] => rfl
  | level, .object ((name, value) :: fields) => by
    have hvalue := print_joined (level + 1) value
    have hfields := printFields_joined (level + 1) fields
    simp only [joined, joinedFields, print, quote_joined, hvalue, hfields]

theorem printItems_joined : ∀ (level : Nat) (items : List Json),
    printItems level (joinedItems items) = printItems level items
  | _, [] => rfl
  | level, item :: items => by
    have hitem := print_joined level item
    have hitems := printItems_joined level items
    simp only [joinedItems, printItems, hitem, hitems]

theorem printFields_joined : ∀ (level : Nat) (fields : List (RawText × Json)),
    printFields level (joinedFields fields) = printFields level fields
  | _, [] => rfl
  | level, (name, value) :: fields => by
    have hvalue := print_joined level value
    have hfields := printFields_joined level fields
    simp only [joinedFields, printFields, quote_joined, hvalue, hfields]

end

theorem render_joined (j : Json) : j.joined.render = j.render := print_joined 0 j

/-! ## Reading values -/

section Expecting

variable {c d : Char} {t : Text}

theorem dropWhile_newLine (level : Nat) (t : Text) :
    (newLine level ++ t).dropWhile isSpace = t.dropWhile isSpace := by
  refine List.dropWhile_append_of_pos fun c hc => ?_
  rcases List.mem_cons.1 hc with rfl | hc
  · rfl
  · rw [List.eq_of_mem_replicate hc]
    rfl

theorem expect_newLine (level : Nat) (t : Text) : expect c (newLine level ++ t) = expect c t := by
  rw [expect, dropWhile_newLine, expect]

theorem readValue?_newLine (steps level : Nat) (t : Text) :
    readValue? steps (newLine level ++ t) = readValue? steps t := by
  cases steps with
  | zero => rfl
  | succ steps => simp only [readValue?, expect_newLine, dropWhile_newLine]

theorem expect_self (hc : isSpace c = false) : expect c (c :: t) = some t := by
  simp [expect, hc, Text.after?]

theorem expect_other (hd : isSpace d = false) (hne : c ≠ d) : expect c (d :: t) = none := by
  simp [expect, hd, Text.after?, hne]

theorem readItems?_newLine (steps level : Nat) (t : Text) :
    readItems? steps (newLine level ++ t) = readItems? steps t := by
  cases steps with
  | zero => rfl
  | succ steps => simp only [readItems?, readValue?_newLine]

theorem readFields?_newLine (steps level : Nat) (t : Text) :
    readFields? steps (newLine level ++ t) = readFields? steps t := by
  cases steps with
  | zero => rfl
  | succ steps => simp only [readFields?, expect_newLine]

/-- A blank before a value does not matter. -/
theorem readValue?_blank (steps : Nat) (t : Text) :
    readValue? steps (' ' :: t) = readValue? steps t := by
  cases steps with
  | zero => rfl
  | succ steps => rfl

end Expecting

/-- A word and a number do not begin as a text, a list or an object does. -/
theorem readValue?_scalar {d : Char} {t : Text} (steps : Nat) (hspace : isSpace d = false)
    (hquote : d ≠ '"') (hlist : d ≠ '[') (hobject : d ≠ '\x7b') :
    readValue? (steps + 1) (d :: t) = readScalar? (d :: t) := by
  have hskip : (d :: t).dropWhile isSpace = d :: t := by simp [hspace]
  rw [readValue?, expect_other hspace hquote.symm, expect_other hspace hlist.symm,
    expect_other hspace hobject.symm, hskip]

theorem not_isSpace_of_isDigit {c : Char} (h : c.isDigit = true) : isSpace c = false := by
  have hspace : ∀ d, d.isDigit = false → (c == d) = false := by
    intro d hd
    refine beq_eq_false_iff_ne.2 ?_
    rintro rfl
    rw [h] at hd
    contradiction
  simp only [isSpace, hspace ' ' rfl, hspace '\t' rfl, hspace '\n' rfl, hspace '\r' rfl, Bool.or_self]

/-- What a printed number begins with. -/
theorem exists_ofInt (n : Int) :
    ∃ d ds, Text.ofInt n = d :: ds ∧ (d = '-' ∨ d.isDigit = true) := by
  cases n with
  | ofNat n =>
    obtain ⟨d, ds, hcons, hdigit⟩ := exists_ofNat n
    exact ⟨d, ds, hcons, .inr hdigit⟩
  | negSucc n => exact ⟨_, _, rfl, .inl rfl⟩

theorem not_isSpace_of_numeral {d : Char} (h : d = '-' ∨ d.isDigit = true) : isSpace d = false := by
  rcases h with rfl | h
  · rfl
  · exact not_isSpace_of_isDigit h

/-- A character that does not begin a number is none that a number begins with. -/
theorem ne_of_numeral {c d : Char} (h : d = '-' ∨ d.isDigit = true) (hminus : c ≠ '-')
    (hdigit : c.isDigit = false) : d ≠ c := by
  rintro rfl
  rcases h with rfl | h
  · exact hminus rfl
  · rw [h] at hdigit
    contradiction

/-- What a printed value begins with is no blank and no closing bracket. -/
theorem exists_print (level : Nat) (j : Json) :
    ∃ d ds, print level j = d :: ds ∧ isSpace d = false ∧ ']' ≠ d := by
  cases j with
  | null => exact ⟨_, _, rfl, by decide, by decide⟩
  | bool b => cases b <;> exact ⟨_, _, rfl, by decide, by decide⟩
  | number n =>
    obtain ⟨d, ds, hcons, hd⟩ := exists_ofInt n
    exact ⟨d, ds, by rw [print, hcons], not_isSpace_of_numeral hd,
      (ne_of_numeral hd (by decide) (by decide)).symm⟩
  | text t => exact ⟨_, _, rfl, by decide, by decide⟩
  | list items => cases items <;> exact ⟨_, _, rfl, by decide, by decide⟩
  | object fields => cases fields <;> exact ⟨_, _, rfl, by decide, by decide⟩

/-- A number is read as it was printed. -/
theorem readValue?_ofInt (n : Int) {rest : Text} (h : EndsNumber rest) (steps : Nat) :
    readValue? (steps + 1) (Text.ofInt n ++ rest) = some (number n, rest) := by
  obtain ⟨d, ds, hcons, hd⟩ := exists_ofInt n
  have hnumber := readNumber?_ofInt n h
  have hn : 'n' ≠ d := (ne_of_numeral hd (by decide) (by decide)).symm
  have ht : 't' ≠ d := (ne_of_numeral hd (by decide) (by decide)).symm
  have hf : 'f' ≠ d := (ne_of_numeral hd (by decide) (by decide)).symm
  rw [hcons, List.cons_append] at hnumber
  rw [hcons, List.cons_append, readValue?_scalar steps (not_isSpace_of_numeral hd)
    (ne_of_numeral hd (by decide) (by decide)) (ne_of_numeral hd (by decide) (by decide))
    (ne_of_numeral hd (by decide) (by decide))]
  simp [readScalar?, words, Text.after?, hn, ht, hf, hnumber]

theorem length_le_flatMap_escape (t : RawText) : t.length ≤ (t.flatMap escape).length := by
  induction t with
  | nil => exact Nat.zero_le _
  | cons c t ih =>
    obtain ⟨d, ds, hescape, -⟩ := (writes_escape c).exists_cons
    rw [List.flatMap_cons, List.length_append, hescape]
    simp only [List.length_cons]
    omega

/-- A text is read as it was printed, but for pairs of surrogates. -/
theorem readText?_of_quote {t : RawText} {steps : Nat} (h : (quote t).length ≤ steps + 1) (rest : Text) :
    ∃ after, quote t ++ rest = '"' :: after ∧ readText? steps after = some (t.joined, rest) := by
  have hle := length_le_flatMap_escape t
  simp only [quote, List.length_cons, List.length_append] at h
  refine ⟨t.flatMap escape ++ '"' :: rest, ?_, readText?_quote t rest (by omega)⟩
  rw [quote, List.cons_append, List.append_assoc]
  rfl

/-! ## Values as they are printed -/

section Printed

variable (level outer : Nat) (rest : Text)

theorem print_list (item : Json) (items : List Json) :
    print level (list (item :: items)) ++ rest =
      '[' :: (newLine (level + 1) ++ (print (level + 1) item ++ (printItems (level + 1) items ++
        (newLine level ++ ']' :: rest)))) := by
  simp [print]

theorem printItems_cons (item : Json) (items : List Json) :
    printItems level (item :: items) ++ rest =
      ',' :: (newLine level ++ (print level item ++ (printItems level items ++ rest))) := by
  simp [printItems]

theorem print_object (name : RawText) (value : Json) (fields : List (RawText × Json)) :
    print level (object ((name, value) :: fields)) ++ rest =
      '\x7b' :: (newLine (level + 1) ++ (quote name ++ (':' :: ' ' :: (print (level + 1) value ++
        (printFields (level + 1) fields ++ (newLine level ++ '\x7d' :: rest)))))) := by
  simp [print]

theorem printFields_cons (name : RawText) (value : Json) (fields : List (RawText × Json)) :
    printFields level ((name, value) :: fields) ++ rest =
      ',' :: (newLine level ++ (quote name ++ (':' :: ' ' :: (print level value ++
        (printFields level fields ++ rest))))) := by
  simp [printFields]

theorem endsNumber_newLine : EndsNumber (newLine level ++ rest) := rfl

theorem endsNumber_printItems (items : List Json) :
    EndsNumber (printItems level items ++ (newLine outer ++ rest)) := by
  cases items <;> rfl

theorem endsNumber_printFields (fields : List (RawText × Json)) :
    EndsNumber (printFields level fields ++ (newLine outer ++ rest)) := by
  cases fields <;> rfl

end Printed

mutual

/-- A value is read as it was printed, but for pairs of surrogates, whatever stands behind it. -/
theorem readValue?_print : ∀ (j : Json) (level : Nat) {steps : Nat} (rest : Text),
    (print level j).length < steps → EndsNumber rest →
      readValue? steps (print level j ++ rest) = some (j.joined, rest)
  | .null, _, steps + 1, _, _, _ => rfl
  | .bool b, _, steps + 1, _, _, _ => by cases b <;> rfl
  | .number n, _, steps + 1, _, _, hends => readValue?_ofInt n hends steps
  | .text t, level, steps + 1, rest, h, hends => by
    obtain ⟨after, hquote, hread⟩ := readText?_of_quote (Nat.le_of_lt h) rest
    rw [print, hquote, readValue?, expect_self rfl]
    simp only [hread]
    rfl
  | .list [], level, steps + 1, rest, h, hends => rfl
  | .list (item :: items), level, steps + 1, rest, h, hends => by
    have hlength := congrArg List.length (print_list level [] item items)
    simp only [List.length_append, List.length_cons] at hlength
    obtain ⟨d, ds, hcons, hspace, hopen⟩ := exists_print (level + 1) item
    have hitem (t : Text) : expect ']' (print (level + 1) item ++ t) = none := by
      rw [hcons]
      exact expect_other hspace hopen
    have hitems := readItems?_print item items (level + 1) level rest (show _ < steps by omega)
    rw [print_list, readValue?, expect_other rfl (by decide), expect_self rfl]
    simp only [expect_newLine, hitem, readItems?_newLine, hitems]
    rfl
  | .object [], level, steps + 1, rest, h, hends => rfl
  | .object ((name, value) :: fields), level, steps + 1, rest, h, hends => by
    have hlength := congrArg List.length (print_object level [] name value fields)
    simp only [List.length_append, List.length_cons] at hlength
    have hname (t : Text) : expect '\x7d' (quote name ++ t) = none := expect_other rfl (by decide)
    have hfields :=
      readFields?_print name value fields (level + 1) level rest (show _ < steps by omega)
    rw [print_object, readValue?, expect_other rfl (by decide), expect_other rfl (by decide),
      expect_self rfl]
    simp only [expect_newLine, hname, readFields?_newLine, hfields]
    rfl
termination_by structural _ _ steps => steps

/-- The items of a list are read as they were printed, up to the bracket behind them. -/
theorem readItems?_print : ∀ (item : Json) (items : List Json) (level outer : Nat) {steps : Nat}
    (rest : Text), (print level item).length + (printItems level items).length + 1 < steps →
      readItems? steps
          (print level item ++ (printItems level items ++ (newLine outer ++ ']' :: rest))) =
        some (joinedItems (item :: items), rest)
  | item, [], level, outer, steps + 1, rest, h => by
    have hitem := readValue?_print item level (newLine outer ++ ']' :: rest)
      (show _ < steps by omega) (endsNumber_newLine _ _)
    have hnext : expect ',' (']' :: rest) = none := expect_other rfl (by decide)
    simp only [readItems?, printItems, List.nil_append, hitem, Option.bind_eq_bind, Option.bind_some,
      expect_newLine, hnext, expect_self (show isSpace ']' = false from rfl)]
    rfl
  | item, next :: items, level, outer, steps + 1, rest, h => by
    have hlength := congrArg List.length (printItems_cons level [] next items)
    simp only [List.length_append, List.length_cons] at hlength
    have hitem := readValue?_print item level
      (printItems level (next :: items) ++ (newLine outer ++ ']' :: rest))
      (show _ < steps by omega) (endsNumber_printItems _ _ _ _)
    have hitems := readItems?_print next items level outer rest (show _ < steps by omega)
    simp only [readItems?, hitem, Option.bind_eq_bind, Option.bind_some]
    rw [printItems_cons, expect_self rfl]
    simp only [readItems?_newLine, hitems]
    rfl
termination_by structural _ _ _ _ steps => steps

/-- The fields of an object are read as they were printed, up to the brace behind them. -/
theorem readFields?_print : ∀ (name : RawText) (value : Json) (fields : List (RawText × Json))
    (level outer : Nat) {steps : Nat} (rest : Text),
    (quote name).length + (print level value).length + (printFields level fields).length + 1 < steps →
      readFields? steps
          (quote name ++ (':' :: ' ' :: (print level value ++ (printFields level fields ++
            (newLine outer ++ '\x7d' :: rest))))) =
        some (joinedFields ((name, value) :: fields), rest)
  | name, value, [], level, outer, steps + 1, rest, h => by
    obtain ⟨after, hquote, hname⟩ := readText?_of_quote
      (show (quote name).length ≤ steps + 1 by omega)
      (':' :: ' ' :: (print level value ++ (newLine outer ++ '\x7d' :: rest)))
    have hvalue := readValue?_print value level (newLine outer ++ '\x7d' :: rest)
      (show _ < steps by omega) (endsNumber_newLine _ _)
    have hnext : expect ',' ('\x7d' :: rest) = none := expect_other rfl (by decide)
    rw [printFields, List.nil_append, readFields?, hquote, expect_self rfl]
    simp only [hname, Option.bind_eq_bind, Option.bind_some,
      expect_self (show isSpace ':' = false from rfl), readValue?_blank, hvalue,
      expect_newLine, hnext, expect_self (show isSpace '\x7d' = false from rfl)]
    rfl
  | name, value, (nextName, next) :: fields, level, outer, steps + 1, rest, h => by
    have hlength := congrArg List.length (printFields_cons level [] nextName next fields)
    simp only [List.length_append, List.length_cons] at hlength
    obtain ⟨after, hquote, hname⟩ := readText?_of_quote
      (show (quote name).length ≤ steps + 1 by omega)
      (':' :: ' ' :: (print level value ++ (printFields level ((nextName, next) :: fields) ++
        (newLine outer ++ '\x7d' :: rest))))
    have hvalue := readValue?_print value level
      (printFields level ((nextName, next) :: fields) ++ (newLine outer ++ '\x7d' :: rest))
      (show _ < steps by omega) (endsNumber_printFields _ _ _ _)
    have hfields := readFields?_print nextName next fields level outer rest (show _ < steps by omega)
    rw [readFields?, hquote, expect_self rfl]
    simp only [hname, Option.bind_eq_bind, Option.bind_some,
      expect_self (show isSpace ':' = false from rfl), readValue?_blank, hvalue]
    rw [printFields_cons, expect_self rfl]
    simp only [readFields?_newLine, hfields]
    rfl
termination_by structural _ _ _ _ _ steps => steps

end

/-- Reading undoes printing, for every value, but for pairs of surrogates. -/
theorem read?_render (j : Json) : read? j.render = some j.joined := by
  have h := readValue?_print j 0 [] (Nat.lt_succ_self _) rfl
  rw [List.append_nil] at h
  rw [read?, render, h]
  rfl

theorem render_eq_iff {i j : Json} : i.render = j.render ↔ i.joined = j.joined := by
  constructor
  · intro h
    have hread := congrArg read? h
    rw [read?_render, read?_render] at hread
    exact Option.some.inj hread
  · intro h
    rw [← render_joined i, h, render_joined]

/-! ## What is printed is ASCII -/

/-- Whether a text consists of ASCII characters. -/
def IsAscii (t : Text) : Prop := ∀ c ∈ t, c.toNat < 0x80

/-- Whether a text consists of lines of printable ASCII characters. -/
def IsPrinted (t : Text) : Prop := ∀ c ∈ t, c = '\n' ∨ 0x20 ≤ c.toNat ∧ c.toNat < 0x7F

instance (t : Text) : Decidable (IsPrinted t) := List.decidableBAll _ t

namespace IsPrinted

variable {a b : Text}

theorem nil : IsPrinted [] := List.forall_mem_nil _

theorem cons {c : Char} (hc : c = '\n' ∨ 0x20 ≤ c.toNat ∧ c.toNat < 0x7F) (ha : IsPrinted a) :
    IsPrinted (c :: a) :=
  List.forall_mem_cons.2 ⟨hc, ha⟩

theorem append_iff : IsPrinted (a ++ b) ↔ IsPrinted a ∧ IsPrinted b := List.forall_mem_append

theorem unit {n : Nat} (h : n < 0x10000) : IsPrinted (unit n) := by
  have hdigit : ∀ d < 16, Nat.digitChar d = '\n' ∨
      0x20 ≤ (Nat.digitChar d).toNat ∧ (Nat.digitChar d).toNat < 0x7F := by decide
  rw [Json.unit, Text.hex_four h]
  refine .cons (by decide) (.cons (by decide) ?_)
  exact .cons (hdigit _ (by omega)) (.cons (hdigit _ (by omega)) (.cons (hdigit _ (by omega))
    (.cons (hdigit _ (by omega)) .nil)))

theorem escape (c : CodePoint) : IsPrinted (escape c) := by
  generalize hu : Json.escape c = u
  cases hu ▸ writes_escape c with
  | short _ hprinted _ _ => exact .cons (by decide) (.cons (.inr hprinted) .nil)
  | plain _ _ hprinted _ => exact .cons (.inr hprinted) .nil
  | unit h => exact .unit h
  | pair hhi hlo _ =>
    have hhi' := CodePoint.isHigh_iff.mp hhi
    have hlo' := CodePoint.isLow_iff.mp hlo
    exact append_iff.2 ⟨.unit (by omega), .unit (by omega)⟩

theorem quote (t : RawText) : IsPrinted (quote t) := by
  refine .cons (by decide) (append_iff.2 ⟨fun c hc => ?_, by decide⟩)
  obtain ⟨d, -, hd⟩ := List.mem_flatMap.1 hc
  exact escape d c hd

theorem newLine (level : Nat) : IsPrinted (newLine level) := by
  refine .cons (by decide) fun c hc => ?_
  rw [List.eq_of_mem_replicate hc]
  decide

theorem ofNat (n : Nat) : IsPrinted (Text.ofNat n) := by
  intro c hc
  have hdigit := Nat.isDigit_of_mem_toDigits (by decide) (by decide) hc
  simp only [Char.isDigit, Bool.and_eq_true, decide_eq_true_eq, UInt32.le_iff_toNat_le] at hdigit
  exact .inr ⟨Nat.le_trans (by decide) hdigit.1, Nat.lt_of_le_of_lt hdigit.2 (by decide)⟩

theorem ofInt (n : Int) : IsPrinted (Text.ofInt n) := by
  cases n with
  | ofNat n => exact .ofNat n
  | negSucc n => exact .cons (by decide) (.ofNat _)

mutual

theorem print : ∀ (level : Nat) (j : Json), IsPrinted (print level j)
  | _, .null => by rw [Json.print]; decide
  | _, .bool b => by rw [Json.print]; cases b <;> decide
  | _, .number n => .ofInt n
  | _, .text t => .quote t
  | _, .list [] => by rw [Json.print]; decide
  | level, .list (item :: items) => by
    have hitem := print (level + 1) item
    have hitems := printItems (level + 1) items
    simp only [Json.print, append_iff, newLine, hitem, hitems, and_true]
    decide
  | _, .object [] => by rw [Json.print]; decide
  | level, .object ((name, value) :: fields) => by
    have hvalue := print (level + 1) value
    have hfields := printFields (level + 1) fields
    simp only [Json.print, append_iff, newLine, quote, hvalue, hfields, and_true]
    decide

theorem printItems : ∀ (level : Nat) (items : List Json), IsPrinted (printItems level items)
  | _, [] => .nil
  | level, item :: items => by
    have hitem := print level item
    have hitems := printItems level items
    simp only [Json.printItems, append_iff, newLine, hitem, hitems, and_true]
    decide

theorem printFields : ∀ (level : Nat) (fields : List (RawText × Json)),
    IsPrinted (printFields level fields)
  | _, [] => .nil
  | level, (name, value) :: fields => by
    have hvalue := print level value
    have hfields := printFields level fields
    simp only [Json.printFields, append_iff, newLine, quote, hvalue, hfields, and_true]
    decide

end

theorem isAscii (h : IsPrinted a) : IsAscii a := by
  intro c hc
  rcases h c hc with rfl | hprintable
  · decide
  · exact Nat.lt_trans hprintable.2 (by decide)

end IsPrinted

theorem isPrinted_render (j : Json) : IsPrinted j.render := IsPrinted.print 0 j

theorem isAscii_render (j : Json) : IsAscii j.render := (isPrinted_render j).isAscii

end Annals.Json
