import Annals.Proofs.Date.Iso
import Annals.Proofs.Json.RoundTrip
import Annals.Render.Report

/-!
# Reports that are read back

The text of a report keeps every value that the report was made of, but for pairs of surrogates:
`reports_readable` says of all three reports that their texts are ASCII, that a reader of JSON finds the
object of the values with such pairs joined, and that the object holds these values. So two reports have
one text exactly if their values are the same but for such pairs, as `not_reports_injective` has it of a
file name. A field of an object is found by its name, so the order in which the fields are printed does
not matter (`field?_ordered`).
-/

namespace Annals

namespace Json

/-! ## Taking values apart -/

/-- The value of a field of an object. -/
def field? (name : Text) : Json → Option Json
  | object fields => Assoc.get? name.raw fields
  | _ => none

def toText? : Json → Option RawText
  | text t => some t
  | _ => none

/-- A text without surrogates. -/
def toWord? : Json → Option Text
  | text t =>
    let w : Text := t.map fun c => Char.ofNat c.val
    if w.raw = t then some w else none
  | _ => none

/-- A text, or null where there is none. -/
def toOptional? : Json → Option (Option RawText)
  | null => some none
  | text t => some (some t)
  | _ => none

def toNumber? : Json → Option Int
  | number n => some n
  | _ => none

def toList? {α : Type} (item? : Json → Option α) : Json → Option (List α)
  | list items => items.mapM item?
  | _ => none

/-- Whether a value is the report of a command, in the known version. -/
def isReport (command : Text) (j : Json) : Bool :=
  (j.field? "command").bind toWord? = some command &&
    (j.field? "version").bind toNumber? = some reportVersion

def toEntry? (j : Json) : Option (Entry RawText) := do
  let revision ← (← j.field? "revision").toText?
  let author ← (← j.field? "author").toText?
  let changeset ← (← j.field? "changeset").toOptional?
  let date ← Moment.ofIso? (← (← j.field? "date").toWord?)
  let message ← (← j.field? "message").toList? toText?
  let path ← (← j.field? "path").toOptional?
  let renamedFrom ← (← j.field? "renamed_from").toOptional?
  let tags ← (← j.field? "tags").toList? toText?
  return { revision, author, date, message, path, renamedFrom, tags, changeset }

def toHistory? (j : Json) : Option (History RawText × RawText) := do
  if isReport "history" j then
    return (← (← j.field? "entries").toList? toEntry?, ← (← j.field? "file").toText?)
  else none

def toLine? (j : Json) : Option (AnnotatedLine RawText) := do
  let number ← (← j.field? "line").toNumber?
  let revision ← (← j.field? "revision").toText?
  let author ← (← j.field? "author").toText?
  let text ← (← j.field? "text").toText?
  return { number, revision, author, text }

def toAnnotation? (j : Json) : Option ( Annotation RawText) := do
  if isReport "annotate" j then
    let filename ← (← j.field? "file").toText?
    let lines ← (← j.field? "lines").toList? toLine?
    return { filename, lines }
  else none

def toTag? (j : Json) : Option (Tag RawText) := do
  let revision ← (← j.field? "revision").toText?
  let date ← Moment.ofIso? (← (← j.field? "date").toWord?)
  let names ← (← j.field? "names").toList? toText?
  return { date, revision, names }

def toTags? (j : Json) : Option (List (Tag RawText) × RawText) := do
  if isReport "tags" j then
    return (← (← j.field? "tags").toList? toTag?, ← (← j.field? "root").toText?)
  else none

/-! ## Fields by name -/

theorem perm_inOrder {α : Type} (fields : List (Text × α)) : (inOrder fields).Perm fields :=
  List.mergeSort_perm _ _

theorem get?_map_raw {α : Type} (name : Text) (fields : List (Text × α)) :
    Assoc.get? name.raw (fields.map fun field => (field.1.raw, field.2)) = Assoc.get? name fields := by
  induction fields with
  | nil => rfl
  | cons field fields ih =>
    rw [List.map_cons, Assoc.get?, Assoc.get?, ih]
    simp only [RawText.raw_injective.eq_iff]

/-- Printing the fields in order does not change what is found under a name. -/
theorem field?_ordered {fields : List (Text × Json)} (h : (Assoc.keys fields).Nodup) (name : Text) :
    (ordered fields).field? name = Assoc.get? name fields := by
  have hperm := perm_inOrder fields
  have hsorted : (Assoc.keys (inOrder fields)).Nodup := (hperm.map _).nodup_iff.2 h
  refine Option.ext fun value => ?_
  rw [ordered, field?, get?_map_raw, Assoc.get?_eq_some_iff hsorted, Assoc.get?_eq_some_iff h,
    hperm.mem_iff]

/-- Joining surrogates in values does not change the order of the fields. -/
theorem joined_ordered (fields : List (Text × Json)) :
    (ordered fields).joined = ordered (fields.map fun field => (field.1, field.2.joined)) := by
  have horder : inOrder (fields.map fun field => (field.1, field.2.joined)) =
      (inOrder fields).map fun field => (field.1, field.2.joined) := by
    rw [inOrder, inOrder, List.map_mergeSort]
    exact fun _ _ _ _ => rfl
  rw [ordered, joined_object, ordered, horder, List.map_map, List.map_map]
  refine congrArg object (List.map_congr_left fun field _ => ?_)
  simp only [Function.comp_apply, RawText.joined_raw]

theorem toWord?_word (t : Text) : (word t).toWord? = some t := by
  have hback : (t.raw.map fun c => Char.ofNat c.val) = t := by
    rw [Text.raw, List.map_map]
    refine (List.map_congr_left fun c _ => ?_).trans (List.map_id t)
    rw [Function.comp_apply, CodePoint.val_ofChar]
    exact Char.ofNat_toNat c
  rw [word, toWord?, hback, if_pos rfl]

theorem toOptional?_text? (t : Option RawText) : (text? t).toOptional? = some t := by
  cases t <;> rfl

theorem toList?_map {α : Type} {item? : Json → Option α} {item : α → Json} {as : List α}
    (h : ∀ a ∈ as, item? (item a) = some a) : (list (as.map item)).toList? item? = some as := by
  change (as.map item).mapM item? = some as
  induction as with
  | nil => rfl
  | cons a as ih =>
    have ha := h a List.mem_cons_self
    have has := ih fun b hb => h b (List.mem_cons_of_mem a hb)
    rw [List.map_cons, List.mapM_cons, ha, has]
    rfl

theorem toList?_texts (ts : List RawText) : (texts ts).toList? toText? = some ts :=
  toList?_map fun _ _ => rfl

/-! ## The parts of the reports -/

theorem isReport_of_fields {command : Text} {j : Json} (hcommand : j.field? "command" = some (word command))
    (hversion : j.field? "version" = some (number reportVersion)) : isReport command j = true := by
  simp only [isReport, hcommand, hversion, Option.bind_some, toWord?_word, toNumber?, decide_true,
    Bool.and_self]

theorem toEntry?_ofEntry {e : Entry RawText} (h : e.date.IsUtc) : toEntry? (ofEntry e) = some e := by
  have hfield (name : Text) : (ofEntry e).field? name = _ :=
    field?_ordered (of_decide_eq_true rfl) name
  unfold toEntry?
  simp [hfield, Assoc.get?, toText?, toWord?_word, toOptional?_text?, toList?_texts, Moment.ofIso?_iso h]

theorem toLine?_ofLine (l : AnnotatedLine RawText) : toLine? (ofLine l) = some l := by
  have hfield (name : Text) : (ofLine l).field? name = _ :=
    field?_ordered (of_decide_eq_true rfl) name
  simp [toLine?, hfield, Assoc.get?, toText?, toNumber?]

theorem toTag?_ofTag {t : Tag RawText} (h : t.date.IsUtc) : toTag? (ofTag t) = some t := by
  have hfield (name : Text) : (ofTag t).field? name = _ :=
    field?_ordered (of_decide_eq_true rfl) name
  simp [toTag?, hfield, Assoc.get?, toText?, toWord?_word, toList?_texts, Moment.ofIso?_iso h]

theorem toHistory?_ofHistory {h : History RawText} (hutc : ∀ e ∈ h, e.date.IsUtc) (file : RawText) :
    toHistory? (ofHistory h file) = some (h, file) := by
  have hfield (name : Text) : (ofHistory h file).field? name = _ :=
    field?_ordered (of_decide_eq_true rfl) name
  have hreport : isReport "history" (ofHistory h file) = true :=
    isReport_of_fields (by simp [hfield, Assoc.get?]) (by simp [hfield, Assoc.get?])
  have hentries : (list (h.map ofEntry)).toList? toEntry? = some h :=
    toList?_map fun e he => toEntry?_ofEntry (hutc e he)
  rw [toHistory?, hreport]
  simp [hfield, Assoc.get?, toText?, hentries]

theorem toAnnotation?_ofAnnotated (a : Annotation RawText) : toAnnotation? (ofAnnotated a) = some a := by
  have hfield (name : Text) : (ofAnnotated a).field? name = _ :=
    field?_ordered (of_decide_eq_true rfl) name
  have hreport : isReport "annotate" (ofAnnotated a) = true :=
    isReport_of_fields (by simp [hfield, Assoc.get?]) (by simp [hfield, Assoc.get?])
  have hlines : (list (a.lines.map ofLine)).toList? toLine? = some a.lines :=
    toList?_map fun l _ => toLine?_ofLine l
  rw [toAnnotation?, hreport]
  simp [hfield, Assoc.get?, toText?, hlines]

theorem toTags?_ofTags {tags : List (Tag RawText)} (hutc : ∀ t ∈ tags, t.date.IsUtc) (root : RawText) :
    toTags? (ofTags tags root) = some (tags, root) := by
  have hfield (name : Text) : (ofTags tags root).field? name = _ :=
    field?_ordered (of_decide_eq_true rfl) name
  have hreport : isReport "tags" (ofTags tags root) = true :=
    isReport_of_fields (by simp [hfield, Assoc.get?]) (by simp [hfield, Assoc.get?])
  have htags : (list (tags.map ofTag)).toList? toTag? = some tags :=
    toList?_map fun t ht => toTag?_ofTag (hutc t ht)
  rw [toTags?, hreport]
  simp [hfield, Assoc.get?, toText?, htags]

/-! ## Values without pairs of surrogates -/

theorem map_eq_self_iff {α : Type} {f : α → α} {as : List α} : as.map f = as ↔ ∀ a ∈ as, f a = a := by
  have h := List.map_inj_left (f := f) (g := id) (l := as)
  rwa [List.map_id] at h

theorem optionMap_eq_self_iff {α : Type} {f : α → α} {a? : Option α} :
    a?.map f = a? ↔ ∀ a ∈ a?.toList, f a = a := by
  cases a? <;> simp

end Json

section Texts

variable {τ : Type}

def Entry.texts (e : Entry τ) : List τ :=
  e.revision :: e.author ::
    (e.changeset.toList ++ e.message ++ e.path.toList ++ e.renamedFrom.toList ++ e.tags)

def AnnotatedLine.texts (l : AnnotatedLine τ) : List τ := [l.revision, l.author, l.text]

def Tag.texts (t : Tag τ) : List τ := t.revision :: t.names

variable {f : τ → τ}

theorem Entry.mapTexts_eq_self_iff {e : Entry τ} : e.mapTexts f = e ↔ ∀ t ∈ e.texts, f t = t := by
  obtain ⟨revision, author, date, message, path, renamedFrom, tags, changeset⟩ := e
  simp only [mapTexts, texts, Entry.mk.injEq, Json.map_eq_self_iff, Json.optionMap_eq_self_iff,
    List.forall_mem_cons, List.forall_mem_append, true_and]
  tauto

theorem AnnotatedLine.mapTexts_eq_self_iff {l : AnnotatedLine τ} :
    l.mapTexts f = l ↔ ∀ t ∈ l.texts, f t = t := by
  obtain ⟨number, revision, author, text⟩ := l
  simp [mapTexts, texts]

theorem Tag.mapTexts_eq_self_iff {tag : Tag τ} : tag.mapTexts f = tag ↔ ∀ t ∈ tag.texts, f t = t := by
  obtain ⟨date, revision, names⟩ := tag
  simp [mapTexts, texts, Json.map_eq_self_iff]

end Texts

namespace Json

theorem joined_texts (ts : List RawText) : (texts ts).joined = texts (ts.map RawText.joined) := by
  rw [texts, joined_list, texts, List.map_map, List.map_map]
  rfl

theorem joined_text? (t? : Option RawText) : (text? t?).joined = text? (t?.map RawText.joined) := by
  cases t? <;> rfl

theorem joined_word (t : Text) : (word t).joined = word t := congrArg text (RawText.joined_raw t)

theorem joined_ofEntry (e : Entry RawText) : (ofEntry e).joined = ofEntry (e.mapTexts RawText.joined) := by
  rw [ofEntry, joined_ordered]
  simp only [List.map_cons, List.map_nil, joined_word, joined_text?, joined_texts]
  rfl

theorem joined_ofLine (l : AnnotatedLine RawText) :
    (ofLine l).joined = ofLine (l.mapTexts RawText.joined) := by
  rw [ofLine, joined_ordered]
  rfl

theorem joined_ofTag (t : Tag RawText) : (ofTag t).joined = ofTag (t.mapTexts RawText.joined) := by
  rw [ofTag, joined_ordered]
  simp only [List.map_cons, List.map_nil, joined_word, joined_texts]
  rfl

theorem joined_items {α : Type} {item : α → Json} {join : α → α}
    (h : ∀ a, (item a).joined = item (join a)) (as : List α) :
    (list (as.map item)).joined = list ((as.map join).map item) := by
  rw [joined_list, List.map_map, List.map_map]
  exact congrArg list (List.map_congr_left fun a _ => h a)

theorem joined_ofHistory (h : History RawText) (file : RawText) :
    (ofHistory h file).joined = ofHistory (h.mapTexts RawText.joined) file.joined := by
  rw [ofHistory, joined_ordered]
  simp only [List.map_cons, List.map_nil, joined_word, joined_items joined_ofEntry]
  rfl

theorem joined_ofAnnotated (a : Annotation RawText) :
    (ofAnnotated a).joined = ofAnnotated (a.mapTexts RawText.joined) := by
  rw [ofAnnotated, joined_ordered]
  simp only [List.map_cons, List.map_nil, joined_word, joined_items joined_ofLine]
  rfl

theorem joined_ofTags (tags : List (Tag RawText)) (root : RawText) :
    (ofTags tags root).joined = ofTags (tags.map (Tag.mapTexts RawText.joined)) root.joined := by
  rw [ofTags, joined_ordered]
  simp only [List.map_cons, List.map_nil, joined_word, joined_items joined_ofTag]
  rfl

/-! ## Whole texts -/

/-- A report keeps the values that satisfy a condition but for the pairs of surrogates in their texts,
which `join` joins, and `value?` takes them out of its object. -/
structure Readable {α : Type} (valid : α → Prop) (report : α → Json) (value? : Json → Option α)
    (join : α → α) (texts : α → List RawText) : Prop where
  /-- The text holds ASCII characters only. -/
  isAscii : ∀ a, IsAscii (report a).render
  /-- Reading the text gives the object of the value with its pairs joined. -/
  read : ∀ a, read? (report a).render = some (report (join a))
  /-- The object holds that value. -/
  value : ∀ a, valid a → value? (report (join a)) = some (join a)
  /-- Values have one text exactly if they are the same with their pairs joined. -/
  same : ∀ a b, valid a → valid b → ((report a).render = (report b).render ↔ join a = join b)
  /-- Joining changes nothing exactly if there is no pair. -/
  unpaired : ∀ a, join a = a ↔ ∀ t ∈ texts a, t.Unpaired

theorem Readable.of_value {α : Type} {valid : α → Prop} {report : α → Json} {value? : Json → Option α}
    {join : α → α} {texts : α → List RawText} (hvalid : ∀ a, valid a → valid (join a))
    (hjoin : ∀ a, (report a).joined = report (join a))
    (hvalue : ∀ a, valid a → value? (report a) = some a)
    (hself : ∀ a, join a = a ↔ ∀ t ∈ texts a, t.joined = t) :
    Readable valid report value? join texts where
  isAscii a := isAscii_render (report a)
  read a := by rw [read?_render, hjoin]
  value a ha := hvalue (join a) (hvalid a ha)
  same a b ha hb := by
    rw [render_eq_iff, hjoin, hjoin]
    refine ⟨fun h => ?_, fun h => congrArg report h⟩
    have hsame := congrArg value? h
    rw [hvalue _ (hvalid a ha), hvalue _ (hvalid b hb)] at hsame
    exact Option.some.inj hsame
  unpaired a := by simp only [hself, RawText.joined_eq_self_iff]

theorem readable_ofHistory :
    Readable (fun (h, _) => ∀ e ∈ h, e.date.IsUtc) (fun (h, file) => ofHistory h file) toHistory?
      (fun (h, file) => (h.mapTexts RawText.joined, file.joined))
      (fun (h, file) => file :: h.flatMap Entry.texts) := by
  refine .of_value ?_ ?_ ?_ ?_
  · rintro ⟨h, file⟩ hutc
    exact List.forall_mem_map.mpr hutc
  · rintro ⟨h, file⟩
    exact joined_ofHistory h file
  · rintro ⟨h, file⟩ hutc
    exact toHistory?_ofHistory hutc file
  · rintro ⟨h, file⟩
    simp only [Prod.mk.injEq, History.mapTexts, map_eq_self_iff, Entry.mapTexts_eq_self_iff,
      List.forall_mem_cons, List.forall_mem_flatMap]
    exact and_comm

theorem readable_ofAnnotated :
    Readable (fun _ => True) ofAnnotated toAnnotation? ( Annotation.mapTexts RawText.joined)
      (fun a => a.filename :: a.lines.flatMap AnnotatedLine.texts) := by
  refine .of_value (fun _ _ => trivial) joined_ofAnnotated (fun a _ => toAnnotation?_ofAnnotated a) ?_
  rintro ⟨filename, lines⟩
  simp only [ Annotation.mapTexts, Annotation.mk.injEq, map_eq_self_iff,
    AnnotatedLine.mapTexts_eq_self_iff, List.forall_mem_cons, List.forall_mem_flatMap]

theorem readable_ofTags :
    Readable (fun (tags, _) => ∀ t ∈ tags, t.date.IsUtc) (fun (tags, root) => ofTags tags root) toTags?
      (fun (tags, root) => (tags.map (Tag.mapTexts RawText.joined), root.joined))
      (fun (tags, root) => root :: tags.flatMap Tag.texts) := by
  refine .of_value ?_ ?_ ?_ ?_
  · rintro ⟨tags, root⟩ hutc
    exact List.forall_mem_map.mpr hutc
  · rintro ⟨tags, root⟩
    exact joined_ofTags tags root
  · rintro ⟨tags, root⟩ hutc
    exact toTags?_ofTags hutc root
  · rintro ⟨tags, root⟩
    simp only [Prod.mk.injEq, map_eq_self_iff, Tag.mapTexts_eq_self_iff, List.forall_mem_cons,
      List.forall_mem_flatMap]
    exact and_comm

/-- **Reports can be read back.** The text of a report is ASCII, reading it gives the object of the values
of the report with the pairs of surrogates in them joined, and equal texts report values that are equal
but for such pairs. For dates this is so in UTC. -/
theorem reports_readable :
    Readable (fun (h, _) => ∀ e ∈ h, e.date.IsUtc) (fun (h, file) => ofHistory h file) toHistory?
        (fun (h, file) => (h.mapTexts RawText.joined, file.joined))
        (fun (h, file) => file :: h.flatMap Entry.texts) ∧
      Readable (fun _ => True) ofAnnotated toAnnotation? ( Annotation.mapTexts RawText.joined)
        (fun a => a.filename :: a.lines.flatMap AnnotatedLine.texts) ∧
      Readable (fun (tags, _) => ∀ t ∈ tags, t.date.IsUtc) (fun (tags, root) => ofTags tags root) toTags?
        (fun (tags, root) => (tags.map (Tag.mapTexts RawText.joined), root.joined))
        (fun (tags, root) => root :: tags.flatMap Tag.texts) :=
  ⟨readable_ofHistory, readable_ofAnnotated, readable_ofTags⟩

/-- An entry without a path and with an empty one before it, and with a message of quotes, backslashes,
control characters and a character beyond the basic plane, is read back; and so is a file name with a
surrogate that stands alone. -/
theorem reports_readable_escapes :
    let date := Moment.utc { year := 1, month := 2, day := 28, hour := 23, micro := 7 }
    let h : History :=
      [{ revision := "1.2", author := "\"\\", date, message := ["\u0001\u007f\n", "", "😀é"],
         renamedFrom := some [] }]
    let file : RawText := [0x61, 0xDCFF]
    (∀ e ∈ h.mapTexts Text.raw, e.date.IsUtc) ∧
      (read? (ofHistory (h.mapTexts Text.raw) file).render).bind toHistory? =
        some (h.mapTexts Text.raw, file) := by
  intro date h file
  have hutc : ∀ e ∈ h.mapTexts Text.raw, e.date.IsUtc := by decide
  obtain ⟨hreadable, -⟩ := reports_readable
  have hread := hreadable.read (h.mapTexts Text.raw, file)
  have hvalue := hreadable.value (h.mapTexts Text.raw, file) hutc
  have hsame : (h.mapTexts Text.raw).mapTexts RawText.joined = h.mapTexts Text.raw ∧ file.joined = file := by
    decide
  refine ⟨hutc, ?_⟩
  rw [hread, Option.bind_some, hvalue]
  exact congrArg some (Prod.ext hsame.1 hsame.2)

/-- A file name of two surrogates and one of the code point that they stand for have one text. -/
theorem not_reports_injective :
    ¬∀ (h h' : History RawText) (file file' : RawText), (∀ e ∈ h, e.date.IsUtc) →
      (∀ e ∈ h', e.date.IsUtc) → (ofHistory h file).render = (ofHistory h' file').render →
        h = h' ∧ file = file' := by
  intro hinjective
  have hsame : (ofHistory [] [0xD83D, 0xDE00]).render = (ofHistory [] [0x1F600]).render := by
    rw [render_eq_iff, joined_ofHistory, joined_ofHistory]
    rfl
  obtain ⟨-, hfile⟩ := hinjective [] [] [0xD83D, 0xDE00] [0x1F600] nofun nofun hsame
  contradiction

end Json

end Annals
