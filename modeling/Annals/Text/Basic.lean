/-!
# Texts

A text is a list of code points. Lengths, padding and the order of texts therefore count and compare
code points, and a proof about a text is an induction on a list. Surrogates are no characters and stand in
no text; what may hold them is a raw text (`Text.raw`). This module holds the cutting of texts at a
separator, in the two forms that the line formats need: at every occurrence (`fields`) and at the first
few (`fieldsUpTo`).

`cut_eq_some_iff` and `after?_eq_some_iff` say what a text that was taken apart looked like. `join_fields`
and `sep_notMem_of_mem_fields` say that fields lose nothing and hold no separator.
-/

namespace Annals

abbrev Text := List Char

instance : Coe String Text := ⟨String.toList⟩

/-- The list without the elements at its end that satisfy `p`. -/
def dropEndWhile {α : Type} (p : α → Bool) : List α → List α
  | [] => []
  | a :: as =>
    match dropEndWhile p as with
    | [] => if p a then [] else [a]
    | b :: bs => a :: b :: bs

/-- What is left has no such elements at its end. -/
theorem dropEndWhile_idem {α : Type} (p : α → Bool) (as : List α) :
    dropEndWhile p (dropEndWhile p as) = dropEndWhile p as := by
  induction as with
  | nil => rfl
  | cons a as ih =>
    cases h : dropEndWhile p as with
    | nil => cases ha : p a <;> simp [dropEndWhile, h, ha]
    | cons b bs =>
      have hab : dropEndWhile p (a :: as) = a :: b :: bs := by simp [dropEndWhile, h]
      rw [h] at ih
      rw [hab, dropEndWhile, ih]

namespace Text

/-- The text before the first `sep` and the text after it, if `sep` occurs. -/
def cut (sep : Char) : Text → Option (Text × Text)
  | [] => none
  | c :: cs => if c = sep then some ([], cs) else (cut sep cs).map fun (a, b) => (c :: a, b)

/-- The texts before and after a cut make up the text, and the first holds no separator. -/
theorem cut_eq_some_iff {sep : Char} {t a b : Text} :
    cut sep t = some (a, b) ↔ t = a ++ sep :: b ∧ sep ∉ a := by
  induction t generalizing a with
  | nil => simp [cut]
  | cons c cs ih =>
    rw [cut]
    split
    · next h =>
      subst h
      cases a with
      | nil => simp [eq_comm]
      | cons d ds => grind
    · next h =>
      cases a with
      | nil => simp [h]
      | cons d ds =>
        simp [ih]
        grind

/-- The pieces between the occurrences of `sep`, one more than there are occurrences. -/
def fields (sep : Char) : Text → List Text
  | [] => [[]]
  | c :: cs =>
    if c = sep then [] :: fields sep cs
    else
      match fields sep cs with
      | [] => [[c]]
      | f :: fs => (c :: f) :: fs

theorem fields_ne_nil (sep : Char) (t : Text) : fields sep t ≠ [] := by
  cases t with
  | nil => simp [fields]
  | cons c cs =>
    rw [fields]
    split
    · simp
    · split <;> simp

/-- The pieces between the first `n` occurrences of `sep`; the last piece keeps the others. -/
def fieldsUpTo (sep : Char) : Nat → Text → List Text
  | 0, t => [t]
  | n + 1, t =>
    match cut sep t with
    | none => [t]
    | some (a, b) => a :: fieldsUpTo sep n b

def join (sep : Text) (ts : List Text) : Text := List.intercalate sep ts

/-- The pieces with the separator between them are the text. -/
theorem join_fields (sep : Char) (t : Text) : join [sep] (fields sep t) = t := by
  induction t with
  | nil => rfl
  | cons c cs ih =>
    rw [fields]
    split
    · next h =>
      subst h
      cases hf : fields c cs with
      | nil => exact absurd hf (fields_ne_nil c cs)
      | cons f fs => rw [hf] at ih; simpa [join, List.intercalate] using ih
    · cases hf : fields sep cs with
      | nil => exact absurd hf (fields_ne_nil sep cs)
      | cons f fs =>
        rw [hf] at ih
        cases fs with
        | nil => simpa [join, List.intercalate] using ih
        | cons g gs => simpa [join, List.intercalate] using ih

theorem sep_notMem_of_mem_fields {sep : Char} {t f : Text} (h : f ∈ fields sep t) : sep ∉ f := by
  induction t generalizing f with
  | nil => simp_all [fields]
  | cons c cs ih =>
    rw [fields] at h
    split at h
    · rcases List.mem_cons.1 h with rfl | h
      · simp
      · exact ih h
    · next hc =>
      cases hf : fields sep cs with
      | nil => exact absurd hf (fields_ne_nil sep cs)
      | cons g gs =>
        rw [hf] at h
        rcases List.mem_cons.1 h with rfl | h
        · simpa [Ne.symm hc] using ih (by rw [hf]; exact List.mem_cons_self)
        · exact ih (by rw [hf]; exact List.mem_cons_of_mem g h)

/-- What follows `start` in `t`, if `t` begins with it. -/
def after? : (start t : Text) → Option Text
  | [], t => some t
  | _ :: _, [] => none
  | s :: ss, c :: cs => if s = c then after? ss cs else none

/-- What follows the start is the rest of the text. -/
theorem after?_eq_some_iff {start t rest : Text} :
    after? start t = some rest ↔ t = start ++ rest := by
  induction start generalizing t with
  | nil => simp [after?, eq_comm]
  | cons s ss ih =>
    cases t with
    | nil => simp [after?]
    | cons c cs =>
      by_cases h : s = c
      · simp [after?, h, ih]
      · simp [after?, h, Ne.symm h]

def startsWith (start t : Text) : Bool := (after? start t).isSome

def occursIn (part : Text) : Text → Bool
  | [] => part.isEmpty
  | c :: cs => startsWith part (c :: cs) || occursIn part cs

/-- The text and every text left after dropping characters from its front, longest first. -/
def tails : Text → List Text
  | [] => [[]]
  | c :: cs => (c :: cs) :: tails cs

/-- The text with blanks after it up to width `w`. -/
def padRight (w : Nat) (t : Text) : Text := t ++ List.replicate (w - t.length) ' '

/-- The text with blanks before it up to width `w`. -/
def padLeft (w : Nat) (t : Text) : Text := List.replicate (w - t.length) ' ' ++ t

/-- The decimal digits of a natural number, most significant first. -/
def ofNat (n : Nat) : Text := Nat.toDigits 10 n

/-- The decimal digits of an integer, after a minus sign if it is negative. -/
def ofInt : Int → Text
  | .ofNat n => ofNat n
  | .negSucc n => '-' :: ofNat (n + 1)

/-- The digits of a natural number, with zeros before them up to width `w`. -/
def ofNatPadded (w n : Nat) : Text :=
  let digits := ofNat n
  List.replicate (w - digits.length) '0' ++ digits

/-- The lower-case hexadecimal digits of a natural number, with zeros before them up to width `w`. -/
def hex (w n : Nat) : Text :=
  let digits := Nat.toDigits 16 n
  List.replicate (w - digits.length) '0' ++ digits

/-- Whether one text comes before or is another, comparing code point by code point. -/
def le (a b : Text) : Bool := !decide (b < a)

end Text

end Annals
