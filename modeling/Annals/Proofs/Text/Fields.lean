import Annals.Text.Basic
import Annals.Text.Blank
import Mathlib.Data.List.DropRight

/-!
# Fields that were written with separators

Texts that hold no separator come back when they are written one after the other with separators
between them: all of them by `fields` (`fields_join`), the first few by `fieldsUpTo`, where the last
one may hold anything (`fieldsUpTo_append`). Blanks around a text that begins and ends with other
characters are trimmed and nothing else is (`trim_surrounded`).
-/

namespace Annals

/-! ## The end of a list -/

/-- The library's name for the same function. -/
theorem dropEndWhile_eq_rdropWhile {α : Type} (p : α → Bool) (as : List α) :
    dropEndWhile p as = as.rdropWhile p := by
  induction as using List.reverseRecOn with
  | nil => rfl
  | append_singleton as a ih =>
    have key : ∀ bs : List α, dropEndWhile p (bs ++ [a]) =
        if p a then dropEndWhile p bs else bs ++ [a] := by
      intro bs
      induction bs with
      | nil => simp [dropEndWhile]
      | cons b bs ihb =>
        rw [List.cons_append, dropEndWhile, ihb]
        by_cases ha : p a
        · rw [if_pos ha, if_pos ha, dropEndWhile]
        · rw [if_neg ha, if_neg ha]
          cases bs <;> rfl
    rw [key, List.rdropWhile_concat, ih]

theorem dropEndWhile_append {α : Type} {p : α → Bool} {bs : List α} (as : List α)
    (h : ∀ b ∈ bs, p b) : dropEndWhile p (as ++ bs) = dropEndWhile p as := by
  simp only [dropEndWhile_eq_rdropWhile]
  induction bs using List.reverseRecOn with
  | nil => rw [List.append_nil]
  | append_singleton bs b ih =>
    rw [← List.append_assoc, List.rdropWhile_concat_pos p _ b (h b (by simp))]
    exact ih fun c hc => h c (by simp [hc])

theorem dropEndWhile_eq_self {α : Type} {p : α → Bool} {as : List α}
    (h : ∀ a ∈ as.getLast?, ¬p a) : dropEndWhile p as = as := by
  induction as using List.reverseRecOn with
  | nil => rfl
  | append_singleton as a =>
    rw [dropEndWhile_eq_rdropWhile, List.rdropWhile_concat_neg p _ a (h a (by simp))]

/-- What is left ends otherwise. -/
theorem not_of_mem_getLast?_dropEndWhile {α : Type} {p : α → Bool} {as : List α} {a : α}
    (h : a ∈ (dropEndWhile p as).getLast?) : ¬p a := by
  rw [dropEndWhile_eq_rdropWhile] at h
  obtain ⟨hne, rfl⟩ := List.mem_getLast?_eq_getLast h
  exact List.rdropWhile_last_not p as hne

theorem dropEndWhile_eq_nil_iff {α : Type} {p : α → Bool} {as : List α} :
    dropEndWhile p as = [] ↔ ∀ a ∈ as, p a := by
  rw [dropEndWhile_eq_rdropWhile, List.rdropWhile_eq_nil_iff]

/-- What stands around a list that begins and ends otherwise is dropped. -/
theorem dropEndWhile_dropWhile {α : Type} {p : α → Bool} {before as after : List α}
    (hb : ∀ b ∈ before, p b) (ha : ∀ a ∈ after, p a) (hhead : ∀ a ∈ as.head?, ¬p a)
    (hlast : ∀ a ∈ as.getLast?, ¬p a) :
    dropEndWhile p ((before ++ as ++ after).dropWhile p) = as := by
  rw [List.append_assoc, List.dropWhile_append_of_pos hb]
  cases as with
  | nil =>
    rw [List.nil_append, List.dropWhile_eq_nil_iff.2 ha]
    rfl
  | cons a as =>
    rw [List.cons_append, List.dropWhile_cons_of_neg (hhead a rfl), ← List.cons_append,
      dropEndWhile_append _ ha, dropEndWhile_eq_self hlast]

/-- What is dropped stands around what is left. -/
theorem exists_dropEndWhile_dropWhile {α : Type} (p : α → Bool) (as : List α) :
    ∃ before after, as = before ++ dropEndWhile p (as.dropWhile p) ++ after ∧
      (∀ b ∈ before, p b) ∧ ∀ a ∈ after, p a := by
  refine ⟨as.takeWhile p, (as.dropWhile p).rtakeWhile p, ?_, ?_, ?_⟩
  · rw [dropEndWhile_eq_rdropWhile, List.append_assoc, List.rdropWhile_append_rtakeWhile,
      List.takeWhile_append_dropWhile]
  · exact fun b hb => List.mem_takeWhile_imp hb
  · exact fun a ha => List.mem_rtakeWhile_imp ha

namespace Text

/-! ## Cutting at separators -/

theorem cut_append {sep : Char} {a : Text} (b : Text) (h : sep ∉ a) :
    cut sep (a ++ sep :: b) = some (a, b) :=
  cut_eq_some_iff.2 ⟨rfl, h⟩

theorem fields_append {sep : Char} {a : Text} (b : Text) (h : sep ∉ a) :
    fields sep (a ++ sep :: b) = a :: fields sep b := by
  induction a with
  | nil => simp [fields]
  | cons c cs ih =>
    have hc : c ≠ sep := fun hc => h (hc ▸ List.mem_cons_self)
    rw [List.cons_append, fields, if_neg hc, ih fun hcs => h (List.mem_cons_of_mem c hcs)]

theorem fields_of_notMem {sep : Char} {t : Text} (h : sep ∉ t) : fields sep t = [t] := by
  induction t with
  | nil => rfl
  | cons c cs ih =>
    have hc : c ≠ sep := fun hc => h (hc ▸ List.mem_cons_self)
    rw [fields, if_neg hc, ih fun hcs => h (List.mem_cons_of_mem c hcs)]

/-- A character in front belongs to the first field. -/
theorem exists_fields_cons {sep c : Char} (hc : c ≠ sep) (t : Text) :
    ∃ f fs, fields sep t = f :: fs ∧ fields sep (c :: t) = (c :: f) :: fs := by
  obtain ⟨f, fs, hf⟩ := List.exists_cons_of_ne_nil (fields_ne_nil sep t)
  exact ⟨f, fs, hf, by rw [fields, if_neg hc, hf]⟩

theorem fields_sep_cons (sep : Char) (t : Text) : fields sep (sep :: t) = [] :: fields sep t := by
  rw [fields, if_pos rfl]

/-- Fields that hold no separator are what is read of them. -/
theorem fields_join {sep : Char} {ts : List Text} (hne : ts ≠ []) (h : ∀ t ∈ ts, sep ∉ t) :
    fields sep (join [sep] ts) = ts := by
  induction ts with
  | nil => exact absurd rfl hne
  | cons a ts ih =>
    have ha : sep ∉ a := h a List.mem_cons_self
    cases ts with
    | nil => rw [join, List.intercalate_singleton, fields_of_notMem ha]
    | cons b ts =>
      have hrest := ih (List.cons_ne_nil b ts) fun t ht => h t (List.mem_cons_of_mem a ht)
      rw [join, List.intercalate_cons_cons, List.append_assoc, List.singleton_append,
        fields_append _ ha]
      exact congrArg (a :: ·) hrest

/-- Separators at the front stand behind empty fields. -/
theorem fields_replicate_append (sep : Char) (n : Nat) (t : Text) :
    fields sep (List.replicate n sep ++ t) = List.replicate n [] ++ fields sep t := by
  induction n with
  | zero => rfl
  | succ n ih => rw [List.replicate_succ, List.cons_append, fields, if_pos rfl, ih, List.replicate_succ,
      List.cons_append]

/-- A character behind a text belongs to the last field. -/
theorem fields_concat {sep c : Char} (hc : c ≠ sep) {t last : Text} (init : List Text)
    (h : fields sep t = init ++ [last]) : fields sep (t ++ [c]) = init ++ [last ++ [c]] := by
  induction t generalizing init last with
  | nil =>
    obtain ⟨rfl, rfl⟩ : init = [] ∧ [] = last := by
      simpa [fields, List.cons_eq_append_iff] using h
    exact fields_of_notMem (by simpa using hc.symm)
  | cons d ds ih =>
    rw [List.cons_append]
    unfold fields at h ⊢
    split
    · next hd =>
      -- a separator closes a field, so the last one lies in the rest
      rw [if_pos hd] at h
      cases init with
      | nil => exact absurd (List.cons.inj h).2 (fields_ne_nil sep ds)
      | cons f fs =>
        obtain ⟨rfl, hrest⟩ := List.cons.inj h
        rw [ih _ hrest, List.cons_append]
    · next hd =>
      rw [if_neg hd] at h
      cases hf : fields sep ds with
      | nil => exact absurd hf (fields_ne_nil sep ds)
      | cons f fs =>
        rw [hf] at h
        cases init with
        | nil =>
          obtain ⟨hlast, rfl⟩ := List.cons.inj h
          rw [ih [] hf, ← hlast]
          rfl
        | cons g gs =>
          obtain ⟨rfl, rfl⟩ := List.cons.inj h
          rw [ih (f :: gs) hf]
          rfl

theorem notMem_join {c : Char} {sep : Text} {ts : List Text} (hsep : c ∉ sep)
    (h : ∀ t ∈ ts, c ∉ t) : c ∉ join sep ts := by
  induction ts with
  | nil => exact List.not_mem_nil
  | cons a ts ih =>
    obtain ⟨ha, hts⟩ := List.forall_mem_cons.1 h
    cases ts with
    | nil => simpa [join] using ha
    | cons b ts =>
      rw [join, List.intercalate_cons_cons]
      simp only [List.mem_append, not_or]
      exact ⟨⟨ha, hsep⟩, ih hts⟩

/-- Behind the first of joined texts, every other stands behind a separator. -/
theorem join_cons (sep : Char) (t : Text) (ts : List Text) :
    join [sep] (t :: ts) = t ++ ts.flatMap (sep :: ·) := by
  induction ts generalizing t with
  | nil => rw [join, List.intercalate_singleton, List.flatMap_nil, List.append_nil]
  | cons u ts ih =>
    rw [join, List.intercalate_cons_cons, List.append_assoc, List.flatMap_cons]
    exact congrArg (t ++ sep :: ·) (ih u)

theorem join_append (sep : Char) {ts us : List Text} (hts : ts ≠ []) (hus : us ≠ []) :
    join [sep] (ts ++ us) = join [sep] ts ++ sep :: join [sep] us := by
  obtain ⟨t, ts, rfl⟩ := List.exists_cons_of_ne_nil hts
  obtain ⟨u, us, rfl⟩ := List.exists_cons_of_ne_nil hus
  rw [List.cons_append, join_cons, join_cons, join_cons, List.flatMap_append, List.append_assoc,
    List.flatMap_cons, List.cons_append]

/-- Joined texts end with the last of them. -/
theorem exists_join_getLast {ts : List Text} (h : ts ≠ []) (sep : Text) :
    ∃ before, join sep ts = before ++ ts.getLast h := by
  induction ts with
  | nil => contradiction
  | cons t ts ih =>
    cases ts with
    | nil => exact ⟨[], by rw [join, List.intercalate_singleton]; rfl⟩
    | cons u ts =>
      obtain ⟨before, hbefore⟩ := ih (List.cons_ne_nil u ts)
      refine ⟨t ++ sep ++ before, ?_⟩
      rw [join, List.intercalate_cons_cons, List.append_assoc (t ++ sep), List.getLast_cons_cons]
      exact congrArg (t ++ sep ++ ·) hbefore

theorem subset_join {sep t : Text} {ts : List Text} (h : t ∈ ts) : t ⊆ join sep ts := by
  induction ts with
  | nil => contradiction
  | cons a ts ih =>
    cases ts with
    | nil =>
      rw [join, List.intercalate_singleton, List.mem_singleton.mp h]
      exact List.Subset.refl a
    | cons b ts =>
      rw [join, List.intercalate_cons_cons, List.append_assoc]
      rcases List.mem_cons.mp h with rfl | h
      · exact List.subset_append_left t _
      · exact List.subset_append_of_subset_right a (List.subset_append_of_subset_right sep (ih h))

theorem fieldsUpTo_append {sep : Char} {a : Text} (n : Nat) (b : Text) (h : sep ∉ a) :
    fieldsUpTo sep (n + 1) (a ++ sep :: b) = a :: fieldsUpTo sep n b := by
  rw [fieldsUpTo, cut_append b h]

theorem startsWith_iff {start t : Text} : startsWith start t = true ↔ start <+: t := by
  simp only [startsWith, Option.isSome_iff_exists, after?_eq_some_iff]
  exact ⟨fun ⟨rest, h⟩ => ⟨rest, h.symm⟩, fun ⟨rest, h⟩ => ⟨rest, h.symm⟩⟩

/-! ## Trimming -/

/-- Nothing is left of a text of blanks only. -/
theorem trim_eq_nil_iff {t : Text} : trim t = [] ↔ ∀ c ∈ t, isBlank c := by
  have hstart : trimStart t = [] ↔ ∀ c ∈ t, isBlank c := List.dropWhile_eq_nil_iff
  rw [trim, trimEnd, dropEndWhile_eq_nil_iff, ← hstart]
  constructor
  · intro h
    by_contra hne
    exact Bool.eq_false_iff.mp (List.head_dropWhile_not isBlank hne) (h _ (List.head_mem hne))
  · intro h c hc
    rw [h] at hc
    contradiction

/-- Only the blanks around a text are trimmed, if the text begins and ends with other characters. -/
theorem trim_surrounded {before t after : Text} (hb : before.all isBlank) (ha : after.all isBlank)
    (hhead : ∀ c ∈ t.head?, ¬isBlank c) (hlast : ∀ c ∈ t.getLast?, ¬isBlank c) :
    trim (before ++ t ++ after) = t :=
  dropEndWhile_dropWhile (List.all_eq_true.1 hb) (List.all_eq_true.1 ha) hhead hlast

theorem trim_eq_self {t : Text} (hhead : ∀ c ∈ t.head?, ¬isBlank c)
    (hlast : ∀ c ∈ t.getLast?, ¬isBlank c) : trim t = t := by
  have htrim : trim ([] ++ t ++ []) = t := trim_surrounded rfl rfl hhead hlast
  rwa [List.nil_append, List.append_nil] at htrim

/-- Whether a text neither begins nor ends with a blank. -/
def IsTrimmed (t : Text) : Prop := (∀ c ∈ t.head?, ¬isBlank c) ∧ ∀ c ∈ t.getLast?, ¬isBlank c

theorem isTrimmed_trim (t : Text) : IsTrimmed (trim t) := by
  refine ⟨fun c hc => ?_, fun c hc => not_of_mem_getLast?_dropEndWhile hc⟩
  have hprefix : trim t <+: trimStart t := by
    rw [trim, trimEnd, dropEndWhile_eq_rdropWhile]
    exact List.rdropWhile_prefix _ _
  -- what is left begins as the text does without the blanks at its front
  have hhead : c ∈ (t.dropWhile isBlank).head? := by
    obtain ⟨rest, hrest⟩ := hprefix
    rw [← trimStart, ← hrest, List.head?_append, Option.mem_def.mp hc]
    rfl
  have hnot := List.head?_dropWhile_not isBlank t
  rw [Option.mem_def.mp hhead] at hnot
  exact Bool.eq_false_iff.mp hnot

/-- Whether a text is another one, which is trimmed, with nothing but blanks around it. -/
def Pads (t u : Text) : Prop :=
  IsTrimmed u ∧ ∃ before after, t = before ++ u ++ after ∧ before.all isBlank ∧ after.all isBlank

/-- Trimming leaves the one text that has nothing but blanks around it. -/
theorem trim_eq_iff {t u : Text} : trim t = u ↔ Pads t u := by
  constructor
  · rintro rfl
    obtain ⟨before, after, h, hbefore, hafter⟩ := exists_dropEndWhile_dropWhile isBlank t
    exact ⟨isTrimmed_trim t, before, after, h, List.all_eq_true.mpr hbefore, List.all_eq_true.mpr hafter⟩
  · rintro ⟨⟨hhead, hlast⟩, before, after, rfl, hbefore, hafter⟩
    exact trim_surrounded hbefore hafter hhead hlast

instance (t u : Text) : Decidable (Pads t u) := decidable_of_iff _ trim_eq_iff

theorem pads_self_iff {t : Text} : Pads t t ↔ IsTrimmed t :=
  ⟨And.left, fun h => trim_eq_iff.mp (trim_eq_self h.1 h.2)⟩

instance (t : Text) : Decidable (IsTrimmed t) := decidable_of_iff _ (trim_eq_iff.trans pads_self_iff)

/-- A blank at the end does not matter. -/
theorem trim_concat {c : Char} (hc : isBlank c) (t : Text) : trim (t ++ [c]) = trim t := by
  obtain ⟨htrimmed, before, after, h, hbefore, hafter⟩ := trim_eq_iff.mp (Eq.refl (trim t))
  rw [trim_eq_iff]
  refine ⟨htrimmed, before, after ++ [c], ?_, hbefore, ?_⟩
  · rw [← List.append_assoc, ← h]
  · rw [List.all_append, hafter, List.all_cons, hc]
    rfl

theorem trim_solid {before first middle last after : Text} (hb : before.all isBlank)
    (ha : after.all isBlank) (hfirst : ∀ c ∈ first, ¬isBlank c) (hlast : ∀ c ∈ last, ¬isBlank c)
    (hfirstne : first ≠ []) (hlastne : last ≠ []) :
    trim (before ++ (first ++ middle ++ last) ++ after) = first ++ middle ++ last := by
  refine trim_surrounded hb ha ?_ ?_
  · intro c hc
    rw [List.append_assoc, List.head?_append_of_ne_nil first hfirstne] at hc
    exact hfirst c (List.mem_of_mem_head? hc)
  · intro c hc
    rw [List.getLast?_append_of_ne_nil _ hlastne] at hc
    exact hlast c (List.mem_of_mem_getLast? hc)

end Text

end Annals
